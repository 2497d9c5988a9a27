import DdsOrchestrator.Lib.History
import DdsOrchestrator.Lib.Machine
import DdsOrchestrator.StudioSsh.Session

/-!
What the approvals come to over the life of the panel. A command goes only to a server that has
shown the key approved for its place. An operator who leaves the host and the port of the form
alone from the connection to the approval approves keys only where they have been shown, and
then the first key approved for a place is the only one there ever is.
-/

namespace DdsOrchestrator.StudioSsh

open TrustStore (place)

/-! ### What a run can end with -/

variable {target : SshTarget} {trust : List Approval} {io : SessionIo}
  {messages : List ChannelMsg} {host keyType fingerprint : String} {port : UInt16}
  {key : KeyIdentity}

theorem approved_of_sentTo (h : Panel.sentTo target trust io = some key) :
    approved trust target = some key := by
  unfold Panel.sentTo at h
  split at h
  next hconnect hshown _ _ =>
    obtain rfl := Option.some.inj h
    rw [hshown] at hconnect
    dsimp only [connect] at hconnect
    split at hconnect
    next happroved => exact happroved
    next => cases hconnect
  next => cases h

/-- A host is unknown where it has shown its key and there is no approval for its place. -/
theorem unknownHost_of_connect {handshake : Handshake}
    (h : connect target trust handshake = .error (.unknownHost host port keyType fingerprint)) :
    host = target.host ∧ port = target.port ∧ approved trust target = none ∧
      ∃ err, handshake = .shown ⟨keyType, fingerprint⟩ err := by
  have hmap : ∀ k err, mapConnectError target (some k) trust err =
      .unknownHost host port keyType fingerprint →
      host = target.host ∧ port = target.port ∧ approved trust target = none ∧
        k = ⟨keyType, fingerprint⟩ := by
    intro k err hk
    unfold mapConnectError at hk
    dsimp only at hk
    split at hk
    next hnone =>
      obtain ⟨rfl, rfl, rfl, rfl⟩ := BridgeError.unknownHost.inj hk
      exact ⟨rfl, rfl, hnone, rfl⟩
    next => cases hk
  cases handshake with
  | noKey err => cases h
  | shown k err =>
      have hk : ∃ err, mapConnectError target (some k) trust err =
          .unknownHost host port keyType fingerprint := by
        dsimp only [connect] at h
        split at h
        · cases err with
          | none => cases h
          | some err => exact ⟨err, Except.error.inj h⟩
        · exact ⟨_, Except.error.inj h⟩
      obtain ⟨err', hk⟩ := hk
      obtain ⟨hhost, hport, hnone, rfl⟩ := hmap k err' hk
      exact ⟨hhost, hport, hnone, err, rfl⟩

theorem unknownHost_of_runCommand
    (h : runCommand target trust io messages =
      .error (.unknownHost host port keyType fingerprint)) :
    host = target.host ∧ port = target.port ∧ approved trust target = none ∧
      ∃ err, io.handshake = .shown ⟨keyType, fingerprint⟩ err := by
  unfold runCommand at h
  split at h
  next e hopen =>
    obtain rfl := Except.error.inj h
    unfold openSession at hopen
    split at hopen
    next e' hconnect =>
      obtain rfl := Except.error.inj hopen
      exact unknownHost_of_connect hconnect
    next =>
      split at hopen
      · cases hopen
      · cases hopen
      · split at hopen <;> cases hopen
  next =>
    unfold finish at h
    split at h
    · cases h
    · split at h
      · cases h
      · split at h <;> cases h

theorem of_mapError {result : Except BridgeError String} {e : BridgeError}
    (h : result.mapError SessionError.bridge = .error (.bridge e)) : result = .error e := by
  cases result with
  | ok text => cases h
  | error e' => rw [SessionError.bridge.inj (Except.error.inj h)]

/-! ### The panel -/

namespace TrustFile

/-- The store that a read of the file gives, if it can be read. -/
def held : TrustFile → Option TrustStore
  | absent => some .new
  | readable store => some store
  | torn _ => none

theorem held_of_openFile {path : String} {fault : Option String} {f : TrustFile}
    {store : TrustStore} (h : f.openFile path fault = .ok store) : f.held = some store := by
  cases f with
  | absent => exact congrArg some (Except.ok.inj h)
  | readable s =>
      cases fault with
      | none => exact congrArg some (Except.ok.inj h)
      | some detail => cases h
  | torn detail => cases h

end TrustFile

namespace Panel

open History (Justified)

variable {p p' : Panel} {bs : List Seen} {f : TrustFile}

/-- A start is passed over, fails, or hands a run to a worker. -/
theorem start_cases (pem : Bool) (s : SshSession) :
    s.start pem = s ∨
      (s.phase ≠ .connecting ∧ ∃ err, s.start pem = s.fail err) ∨
      (s.phase ≠ .connecting ∧ ∃ target notice, s.form.target = .ok target ∧
        s.start pem = { s with
          receiver := some (.unlocking target s.form.passphrase s.form.command)
          phase := .connecting, notice }) := by
  unfold SshSession.start
  split
  next => exact .inl rfl
  next hbusy =>
    have hphase : s.phase ≠ .connecting := fun h => hbusy (decide_eq_true h)
    split
    next err _ => exact .inr (.inl ⟨hphase, err, rfl⟩)
    next target htarget =>
      split
      · exact .inr (.inr ⟨hphase, target, _, htarget, rfl⟩)
      · exact .inr (.inl ⟨hphase, _, rfl⟩)

/-- An approval is passed over, fails, or goes into the file and is followed by a start. -/
theorem approve_cases (io : ApprovalIo) (p : Panel) :
    (p.approve io = p ∧ p.seen (.approve io) = []) ∨
      (p.session.phase ≠ .connecting ∧ p.seen (.approve io) = [] ∧ ∃ err file,
        p.approve io = { session := p.session.fail err, file } ∧
          (file = p.file ∨ ∃ detail, file = .torn detail)) ∨
      (∃ keyType fingerprint target store notice,
        p.session.phase = .awaitingApproval keyType fingerprint ∧
        p.session.form.target = .ok target ∧ p.file.held = some store ∧
        let a := p.session.form.approval target ⟨keyType, fingerprint⟩ io.nowUnix
        p.seen (.approve io) = [.approved (store.record a)] ∧
        p.approve io =
          { session := { p.session with phase := .idle, notice }.start io.pem
            file := .readable (store.approve a) }) := by
  cases hphase : p.session.phase with
  | awaitingApproval keyType fingerprint =>
      refine .inr ?_
      simp only [approve, seen, hphase]
      cases happroval : p.approval ⟨keyType, fingerprint⟩ io with
      | error err =>
          refine .inl ⟨by simp, ?_, err, p.file, rfl, .inl rfl⟩
          cases io.saveFault <;> simp [happroval]
      | ok r =>
          obtain ⟨a, store⟩ := r
          have hgiven := happroval
          unfold approval at happroval
          split at happroval
          next => cases happroval
          next target htarget =>
            split at happroval
            next => cases happroval
            next store' hopen =>
              obtain ⟨rfl, rfl⟩ := Prod.mk.inj (Except.ok.inj happroval)
              cases hfault : io.saveFault with
              | none =>
                  exact .inr ⟨keyType, fingerprint, target, store', _, rfl, htarget,
                    TrustFile.held_of_openFile hopen, by simp [hgiven], rfl⟩
              | some fault =>
                  cases fault with
                  | unopened detail => exact .inl ⟨by simp, rfl, _, p.file, rfl, .inl rfl⟩
                  | broken detail left =>
                      exact .inl ⟨by simp, rfl, _, .torn left, rfl, .inr ⟨left, rfl⟩⟩
  | _ => exact .inl (by simp [approve, seen, hphase])

/-! ### Commands and approvals -/

def IsSent : Seen → Prop
  | .sent _ _ _ => True
  | _ => False

def IsApproved : Seen → Prop
  | .approved _ => True
  | _ => False

/-- The key that the command was sent to had been approved for the place. -/
def BackedBy : Seen → Seen → Prop
  | .sent target key _, .approved a => place a = (target.host, target.port) ∧ a.key = key
  | _, _ => False

/-- The key that was approved had been shown at the place. -/
def ShownFor : Seen → Seen → Prop
  | .approved a, .shown host port key => place a = (host, port) ∧ a.key = key
  | _, _ => False

structure Backed (bs : List Seen) (p : Panel) : Prop where
  sent : Justified IsSent BackedBy bs
  held : ∀ store, p.file.held = some store →
    (store.approvals.map place).Nodup ∧ ∀ a ∈ store.approvals, Seen.approved a ∈ bs
  worker : ∀ target command store,
    p.session.receiver = some (.connecting target command store) →
      ∀ a ∈ store.approvals, Seen.approved a ∈ bs

theorem Backed.keep (h : Backed bs p)
    (hheld : ∀ store, p'.file.held = some store → p.file.held = some store)
    (hworker : ∀ target command store,
      p'.session.receiver = some (.connecting target command store) →
        p.session.receiver = some (.connecting target command store)) : Backed bs p' where
  sent := h.sent
  held := fun store hstore => h.held store (hheld store hstore)
  worker := fun target command store hstore =>
    h.worker target command store (hworker target command store hstore)

theorem Backed.see (h : Backed bs p) {b : Seen} (hb : IsSent b → ∃ c ∈ bs, BackedBy b c) :
    Backed (bs ++ [b]) p where
  sent := h.sent.concat hb
  held := fun store hstore =>
    ⟨(h.held store hstore).1, fun a ha => List.mem_append_left _ ((h.held store hstore).2 a ha)⟩
  worker := fun target command store hstore a ha =>
    List.mem_append_left _ (h.worker target command store hstore a ha)

theorem receiver_start {pem : Bool} {s : SshSession} {target : SshTarget} {command : String}
    {store : TrustStore}
    (h : (s.start pem).receiver = some (.connecting target command store)) :
    s.receiver = some (.connecting target command store) := by
  rcases start_cases pem s with hsame | ⟨-, err, hfail⟩ | ⟨-, t, notice, -, hstart⟩
  · rwa [hsame] at h
  · rwa [hfail] at h
  · rw [hstart] at h
    cases h

theorem receiver_poll {s : SshSession} {w : Worker} (h : s.poll.receiver = some w) :
    s.receiver = some w := by
  unfold SshSession.poll at h
  split at h
  next result _ =>
    dsimp only at h
    split at h <;> cases h
  next => exact h

theorem exists_backing (h : Backed bs p) {target : SshTarget} {command : String}
    {store : TrustStore} {io : SessionIo} {key : KeyIdentity}
    (hworker : p.session.receiver = some (.connecting target command store))
    (hsent : sentTo target store.trusted io = some key) :
    ∃ c ∈ bs, BackedBy (.sent target key command) c := by
  have happroved := approved_of_sentTo hsent
  rw [TrustStore.approved_trusted] at happroved
  obtain ⟨a, hfind, hkey⟩ := Option.map_eq_some_iff.mp happroved
  obtain ⟨ha, hhost, hport⟩ := TrustStore.of_find_eq_some hfind
  exact ⟨.approved a, h.worker target command store hworker a ha, Prod.ext hhost hport, hkey⟩

theorem Backed.connect (h : Backed bs p) (io : SessionIo) (messages : List ChannelMsg) :
    Backed (bs ++ p.seen (.connect io messages)) (p.step (.connect io messages)) := by
  dsimp only [step, seen]
  split
  next target command store hworker =>
    have hstep : Backed bs (p.goOn (runCommand target store io messages)) :=
      h.keep (fun _ hs => hs) fun t c s hr => by cases hr
    have hshown : ∀ key, Backed (bs ++ [.shown target.host target.port key])
        (p.goOn (runCommand target store io messages)) := fun key => hstep.see (fun hb => hb.elim)
    have hbacking : ∀ key, sentTo target store.trusted io = some key →
        ∃ c ∈ bs, BackedBy (.sent target key command) c :=
      fun key hsent => exists_backing h hworker hsent
    cases hsent : sentTo target store.trusted io with
    | none =>
        cases io.handshake with
        | noKey err => simpa using hstep
        | shown key err => simpa using hshown key
    | some key =>
        obtain ⟨c, hc, hback⟩ := hbacking key hsent
        cases io.handshake with
        | noKey err => simpa using hstep.see fun _ => ⟨c, hc, hback⟩
        | shown key' err =>
            have := (hshown key').see (b := .sent target key command)
              fun _ => ⟨c, List.mem_append_left _ hc, hback⟩
            simpa using this
  next => simpa using h

theorem Backed.approve (h : Backed bs p) (io : ApprovalIo) :
    Backed (bs ++ p.seen (.approve io)) (p.approve io) := by
  rcases approve_cases io p with ⟨hsame, hseen⟩ | ⟨-, hseen, err, file, hfail, hfile⟩ |
      ⟨keyType, fingerprint, target, store, notice, -, -, hheld, hseen, hsave⟩
  · rw [hsame, hseen, List.append_nil]
    exact h
  · rw [hfail, hseen, List.append_nil]
    refine h.keep (fun store hstore => ?_) fun _ _ _ hr => hr
    rcases hfile with rfl | ⟨detail, rfl⟩
    · exact hstore
    · cases hstore
  · rw [hsave, hseen]
    generalize p.session.form.approval target ⟨keyType, fingerprint⟩ io.nowUnix = a
    have hkeep := h.see (b := .approved (store.record a)) fun hb => hb.elim
    refine ⟨hkeep.sent, fun store' hstore' => ?_, fun t c s hr => ?_⟩
    · obtain rfl := Option.some.inj hstore'
      refine ⟨TrustStore.nodup_approve (h.held store hheld).1, fun b hb => ?_⟩
      rcases TrustStore.mem_approve.mp hb with ⟨hold, -⟩ | rfl
      · exact (hkeep.held store hheld).2 b hold
      · exact List.mem_append_right _ (List.mem_singleton_self _)
    · have hbefore := receiver_start hr
      exact hkeep.worker t c s hbefore

theorem Backed.step (h : Backed bs p) (e : Event) : Backed (bs ++ p.seen e) (p.step e) := by
  cases e with
  | connect io messages => exact h.connect io messages
  | approve io => exact h.approve io
  | unlock unlocked readFault runtime =>
      rw [show p.seen (.unlock unlocked readFault runtime) = [] from rfl, List.append_nil]
      dsimp only [Panel.step]
      split
      next target passphrase command hworker =>
        refine ⟨h.sent, h.held, fun t c s hr => ?_⟩
        have hopen := Option.some.inj hr
        unfold Panel.unlock at hopen
        split at hopen
        next => cases hopen
        next =>
          split at hopen
          next => cases hopen
          next => cases hopen
          next hstore =>
            obtain ⟨-, -, rfl⟩ := Worker.connecting.inj hopen
            exact (h.held _ (TrustFile.held_of_openFile hstore)).2
      next => exact h
  | edit form =>
      rw [show p.seen (.edit form) = [] from rfl, List.append_nil]
      exact h.keep (fun _ hs => hs) fun _ _ _ hr => hr
  | generate result =>
      rw [show p.seen (.generate result) = [] from rfl, List.append_nil]
      exact h.keep (fun _ hs => hs) fun _ _ _ hr => hr
  | start pem =>
      rw [show p.seen (.start pem) = [] from rfl, List.append_nil]
      exact h.keep (fun _ hs => hs) fun _ _ _ hr => receiver_start hr
  | poll =>
      rw [show p.seen .poll = [] from rfl, List.append_nil]
      exact h.keep (fun _ hs => hs) fun _ _ _ hr => receiver_poll hr
  | restart =>
      rw [show p.seen .restart = [] from rfl, List.append_nil]
      exact h.keep (fun _ hs => hs) fun _ _ _ hr => by cases hr

/-! ### An operator who leaves the place alone -/

/-- The form goes on naming the same place while it matters. -/
def Careful (p : Panel) : Event → Prop
  | .edit form =>
    (p.session.phase = .connecting ∨
      ∃ keyType fingerprint, p.session.phase = .awaitingApproval keyType fingerprint) →
    form.host = p.session.form.host ∧ form.port = p.session.form.port
  | _ => True

/-- The key has been shown at the place that the form names, and nothing is approved there. -/
def Fresh (bs : List Seen) (p : Panel) (key : KeyIdentity) : Prop :=
  ∃ host port, p.session.form.place = some (host, port) ∧ Seen.shown host port key ∈ bs ∧
    ∀ store, p.file.held = some store → store.find host port = none

/-- What has been approved is in the file, as the first approval of its place. -/
structure Recorded (bs : List Seen) (f : TrustFile) : Prop where
  kept : ∀ store, f.held = some store → ∀ a, Seen.approved a ∈ bs → a ∈ store.approvals
  one : ∀ a b, Seen.approved a ∈ bs → Seen.approved b ∈ bs → place a = place b → a = b
  first : ∀ a, Seen.approved a ∈ bs → a.replaced = none
  shown : Justified IsApproved ShownFor bs

def workerTarget : Worker → Option SshTarget
  | .unlocking target _ _ | .connecting target _ _ => some target
  | .finished _ => none

structure Pinned (bs : List Seen) (p : Panel) : Prop where
  recorded : Recorded bs p.file
  busy : ∀ w, p.session.receiver = some w → p.session.phase = .connecting
  placed : ∀ w target, p.session.receiver = some w → workerTarget w = some target →
    p.session.form.place = some (target.host, target.port)
  unlocked : ∀ target command store,
    p.session.receiver = some (.connecting target command store) → p.file.held = some store
  unknown : ∀ host port keyType fingerprint,
    p.session.receiver =
        some (.finished (.error (.bridge (.unknownHost host port keyType fingerprint)))) →
      Fresh bs p ⟨keyType, fingerprint⟩
  awaiting : ∀ keyType fingerprint,
    p.session.phase = .awaitingApproval keyType fingerprint → Fresh bs p ⟨keyType, fingerprint⟩

theorem Recorded.see (h : Recorded bs f) {b : Seen} (hb : ¬ IsApproved b) :
    Recorded (bs ++ [b]) f := by
  have hold : ∀ a, Seen.approved a ∈ bs ++ [b] → Seen.approved a ∈ bs := by
    intro a ha
    rcases List.mem_append.mp ha with hmem | hlast
    · exact hmem
    · rw [← List.mem_singleton.mp hlast] at hb
      exact absurd trivial hb
  exact ⟨fun store hstore a ha => h.kept store hstore a (hold a ha),
    fun a c ha hc => h.one a c (hold a ha) (hold c hc), fun a ha => h.first a (hold a ha),
    h.shown.concat fun happroved => absurd happroved hb⟩

theorem Recorded.append (h : Recorded bs f) {cs : List Seen} (hcs : ∀ c ∈ cs, ¬ IsApproved c) :
    Recorded (bs ++ cs) f := by
  induction cs generalizing bs with
  | nil => rwa [List.append_nil]
  | cons c cs ih =>
      rw [List.append_cons]
      exact ih (h.see (hcs c List.mem_cons_self)) fun d hd => hcs d (List.mem_cons_of_mem c hd)

/-- A place that has no approval gets one. -/
theorem Recorded.approve (h : Recorded bs f) {store : TrustStore} {a : ApprovalRecord}
    (hheld : f.held = some store) (hnone : store.find a.host a.port = none)
    (hreplaced : a.replaced = none) (hshown : Seen.shown a.host a.port a.key ∈ bs) :
    Recorded (bs ++ [.approved (store.record a)]) (.readable (store.approve a)) := by
  have hrecord : store.record a = a := by
    rw [TrustStore.record, hnone, hreplaced]
    exact congrArg _ hreplaced.symm
  have hmem : ∀ b, Seen.approved b ∈ bs ++ [.approved (store.record a)] ↔
      Seen.approved b ∈ bs ∨ b = a := by
    intro b
    rw [hrecord, List.mem_append, List.mem_singleton, Seen.approved.injEq]
  have hother : ∀ b, Seen.approved b ∈ bs → place b ≠ place a := by
    intro b hb hplace
    obtain ⟨hhost, hport⟩ := Prod.mk.inj hplace
    exact TrustStore.find_eq_none_iff.mp hnone b (h.kept store hheld b hb) ⟨hhost, hport⟩
  refine ⟨fun store' hstore' b hb => ?_, fun b c hb hc hplace => ?_, fun b hb => ?_,
    h.shown.concat fun _ => ⟨.shown a.host a.port a.key, hshown, rfl, rfl⟩⟩
  · obtain rfl := Option.some.inj hstore'
    rw [TrustStore.mem_approve, hrecord]
    rcases (hmem b).mp hb with hold | rfl
    · exact .inl ⟨h.kept store hheld b hold, hother b hold⟩
    · exact .inr rfl
  · rcases (hmem b).mp hb with hb' | rfl <;> rcases (hmem c).mp hc with hc' | rfl
    · exact h.one b c hb' hc' hplace
    · exact absurd hplace (hother b hb')
    · exact absurd hplace.symm (hother c hc')
    · rfl
  · rcases (hmem b).mp hb with hold | rfl
    · exact h.first b hold
    · exact hreplaced

theorem Pinned.receiver_eq_none (h : Pinned bs p) (hphase : p.session.phase ≠ .connecting) :
    p.session.receiver = none := by
  cases hr : p.session.receiver with
  | none => rfl
  | some w => exact absurd (h.busy w hr) hphase

/-- Without a worker and an approval to wait for, there is only the file to look at. -/
theorem pinned_of_idle (hrecorded : Recorded bs p.file) (hreceiver : p.session.receiver = none)
    (hphase : ∀ keyType fingerprint, p.session.phase ≠ .awaitingApproval keyType fingerprint) :
    Pinned bs p where
  recorded := hrecorded
  busy := fun w hw => by rw [hreceiver] at hw; cases hw
  placed := fun w target hw => by rw [hreceiver] at hw; cases hw
  unlocked := fun target command store hw => by rw [hreceiver] at hw; cases hw
  unknown := fun host port keyType fingerprint hw => by rw [hreceiver] at hw; cases hw
  awaiting := fun keyType fingerprint hawaiting => absurd hawaiting (hphase _ _)

theorem Pinned.start (h : Pinned bs p) (pem : Bool) : Pinned bs (p.onSession (·.start pem)) := by
  rcases start_cases pem p.session with hsame | ⟨hphase, err, hfail⟩ |
      ⟨hphase, target, notice, htarget, hstart⟩
  · rw [onSession, hsame]
    exact h
  · rw [onSession, hfail]
    exact pinned_of_idle h.recorded (h.receiver_eq_none hphase) fun _ _ hp => by cases hp
  · rw [onSession, hstart]
    refine ⟨h.recorded, fun _ _ => rfl, fun w t hw ht => ?_, fun _ _ _ hw => (by cases hw),
      fun _ _ _ _ hw => (by cases hw), fun _ _ hp => (by cases hp)⟩
    obtain rfl := Option.some.inj hw
    obtain rfl := Option.some.inj ht
    exact Form.place_of_target htarget

theorem Pinned.poll (h : Pinned bs p) : Pinned bs (p.onSession (·.poll)) := by
  change Pinned bs { p with session := p.session.poll }
  unfold SshSession.poll
  split
  next result hworker =>
    dsimp only
    split
    next => exact pinned_of_idle h.recorded rfl fun _ _ hp => by cases hp
    next host port keyType fingerprint =>
      refine ⟨h.recorded, fun _ hw => (by cases hw), fun _ _ hw => (by cases hw),
        fun _ _ _ hw => (by cases hw), fun _ _ _ _ hw => (by cases hw), fun kt fp hp => ?_⟩
      obtain ⟨rfl, rfl⟩ := SshPhase.awaitingApproval.inj hp
      exact h.unknown host port _ _ hworker
    next => exact pinned_of_idle h.recorded rfl fun _ _ hp => by cases hp
  next => exact h

theorem Pinned.edit (h : Pinned bs p) (form : Form) (hcareful : Careful p (.edit form)) :
    Pinned bs (p.step (.edit form)) := by
  have hplace : (p.session.phase = .connecting ∨
      ∃ keyType fingerprint, p.session.phase = .awaitingApproval keyType fingerprint) →
      form.place = p.session.form.place := by
    intro hphase
    obtain ⟨hhost, hport⟩ := hcareful hphase
    rw [Form.place, Form.place, hhost, hport]
  refine ⟨h.recorded, h.busy, fun w target hw ht => ?_, h.unlocked,
    fun host port keyType fingerprint hw => ?_, fun keyType fingerprint hp => ?_⟩
  · exact (hplace (.inl (h.busy w hw))).trans (h.placed w target hw ht)
  · obtain ⟨host, port, hform, hrest⟩ := h.unknown host port keyType fingerprint hw
    exact ⟨host, port, (hplace (.inl (h.busy _ hw))).trans hform, hrest⟩
  · obtain ⟨host, port, hform, hrest⟩ := h.awaiting keyType fingerprint hp
    exact ⟨host, port, (hplace (.inr ⟨_, _, hp⟩)).trans hform, hrest⟩

theorem Pinned.unlock (h : Pinned bs p) (unlocked : Except String Unit)
    (readFault runtime : Option String) :
    Pinned bs (p.step (.unlock unlocked readFault runtime)) := by
  dsimp only [Panel.step]
  split
  next target passphrase command hworker =>
    have hconnecting := h.busy _ hworker
    have hplace := h.placed _ target hworker rfl
    have hgoOn : ∀ w, (∀ t, workerTarget w = some t → t = target) →
        (∀ t c store, w = .connecting t c store → p.file.held = some store) →
        (∀ host port kt fp, w ≠ .finished (.error (.bridge (.unknownHost host port kt fp)))) →
        Pinned bs (p.goOn w) := by
      intro w htarget hstore hunknown
      refine ⟨h.recorded, fun _ _ => hconnecting, fun w' t hw ht => ?_, fun t c store hw => ?_,
        fun host port kt fp hw => ?_, fun kt fp hp => ?_⟩
      · obtain rfl := Option.some.inj hw
        rw [htarget t ht]
        exact hplace
      · exact hstore t c store (Option.some.inj hw)
      · exact absurd (Option.some.inj hw) (hunknown host port kt fp)
      · exact absurd (hconnecting.symm.trans hp) (by simp)
    unfold Panel.unlock
    split
    next => exact hgoOn _ (fun _ ht => by cases ht) (fun _ _ _ hw => by cases hw) (by simp)
    next =>
      split
      next => exact hgoOn _ (fun _ ht => by cases ht) (fun _ _ _ hw => by cases hw) (by simp)
      next =>
        exact hgoOn _ (fun _ ht => (by cases ht)) (fun _ _ _ hw => (by cases hw))
          (by simp [SshTarget.fail])
      next hopen =>
        refine hgoOn _ (fun t ht => (Option.some.inj ht).symm) (fun t c store' hw => ?_) (by simp)
        obtain ⟨-, -, rfl⟩ := Worker.connecting.inj hw
        exact TrustFile.held_of_openFile hopen
  next => exact h

theorem Pinned.connect (h : Pinned bs p) (io : SessionIo) (messages : List ChannelMsg) :
    Pinned (bs ++ p.seen (.connect io messages)) (p.step (.connect io messages)) := by
  dsimp only [Panel.step, seen]
  split
  next target command store hworker =>
    have hconnecting := h.busy _ hworker
    have hplace := h.placed _ target hworker rfl
    have hheld := h.unlocked target command store hworker
    refine ⟨h.recorded.append fun c hc => ?_, fun _ _ => hconnecting,
      fun w t hw ht => ?_, fun t c store' hw => ?_, fun host port kt fp hw => ?_,
      fun kt fp hp => ?_⟩
    · rcases List.mem_append.mp hc with hshown | hsent
      · split at hshown
        · rw [List.mem_singleton.mp hshown]
          exact id
        · cases hshown
      · split at hsent
        · rw [List.mem_singleton.mp hsent]
          exact id
        · cases hsent
    · obtain rfl := Option.some.inj hw
      cases ht
    · cases Option.some.inj hw
    · have hresult : (StudioSsh.runCommand target store.trusted io messages).mapError
          SessionError.bridge = .error (.bridge (.unknownHost host port kt fp)) :=
        Worker.finished.inj (Option.some.inj hw)
      obtain ⟨rfl, rfl, hnone, err, hshown⟩ := unknownHost_of_runCommand (of_mapError hresult)
      refine ⟨target.host, target.port, hplace, ?_, fun store' hstore' => ?_⟩
      · rw [hshown]
        exact List.mem_append_right _ (List.mem_append_left _ (List.mem_singleton_self _))
      · obtain rfl : store = store' := Option.some.inj (hheld.symm.trans hstore')
        rw [TrustStore.approved_trusted] at hnone
        exact Option.map_eq_none_iff.mp hnone
    · exact absurd (hconnecting.symm.trans hp) (by simp)
  next => simpa using h

theorem Pinned.approve (h : Pinned bs p) (io : ApprovalIo) :
    Pinned (bs ++ p.seen (.approve io)) (p.approve io) := by
  rcases approve_cases io p with ⟨hsame, hseen⟩ | ⟨hphase, hseen, err, file, hfail, hfile⟩ |
      ⟨keyType, fingerprint, target, store, notice, hphase, htarget, hheld, hseen, hsave⟩
  · rw [hsame, hseen, List.append_nil]
    exact h
  · rw [hfail, hseen, List.append_nil]
    refine pinned_of_idle ?_ (h.receiver_eq_none hphase) fun _ _ hp => by cases hp
    rcases hfile with rfl | ⟨detail, rfl⟩
    · exact h.recorded
    · exact ⟨fun _ hstore => (by cases hstore), h.recorded.one, h.recorded.first, h.recorded.shown⟩
  · obtain ⟨host, port, hplace, hshown, hnone⟩ := h.awaiting keyType fingerprint hphase
    rw [Form.place_of_target htarget] at hplace
    obtain ⟨rfl, rfl⟩ := Prod.mk.inj (Option.some.inj hplace)
    rw [hsave, hseen]
    have hrecorded := h.recorded.approve
      (a := p.session.form.approval target ⟨keyType, fingerprint⟩ io.nowUnix) hheld
      (hnone store hheld) rfl hshown
    have hidle : Pinned _ { session := { p.session with phase := .idle, notice }
                            file := .readable (store.approve (p.session.form.approval target
                              ⟨keyType, fingerprint⟩ io.nowUnix)) } :=
      pinned_of_idle hrecorded (h.receiver_eq_none (by rw [hphase]; simp)) fun _ _ hp => by cases hp
    exact hidle.start io.pem

theorem Pinned.step (h : Pinned bs p) {e : Event} (hcareful : Careful p e) :
    Pinned (bs ++ p.seen e) (p.step e) := by
  cases e with
  | connect io messages => exact h.connect io messages
  | approve io => exact h.approve io
  | edit form =>
      rw [show p.seen (.edit form) = [] from rfl, List.append_nil]
      exact h.edit form hcareful
  | unlock unlocked readFault runtime =>
      rw [show p.seen (.unlock unlocked readFault runtime) = [] from rfl, List.append_nil]
      exact h.unlock unlocked readFault runtime
  | generate result =>
      rw [show p.seen (.generate result) = [] from rfl, List.append_nil]
      exact ⟨h.recorded, h.busy, h.placed, h.unlocked, h.unknown, h.awaiting⟩
  | start pem =>
      rw [show p.seen (.start pem) = [] from rfl, List.append_nil]
      exact h.start pem
  | poll =>
      rw [show p.seen .poll = [] from rfl, List.append_nil]
      exact h.poll
  | restart =>
      rw [show p.seen .restart = [] from rfl, List.append_nil]
      exact pinned_of_idle h.recorded rfl fun _ _ hp => by cases hp

/-! ### Results -/

/-- The panel of a new installation. -/
def init (privatePem trustPath : String) : Panel :=
  { session := .withPaths privatePem trustPath, file := .absent }

end Panel

end DdsOrchestrator.StudioSsh
