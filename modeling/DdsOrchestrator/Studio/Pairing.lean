import DdsOrchestrator.Studio.SharedCatalog

/-!
What the Studio holds is a state the node was in. A snapshot comes with the number of
events it is behind, and a batch of deletions takes it to the end of the batch; so items
and cursor always belong together, whatever the node did between the exchanges. A reading
that failed leaves both; a mutation that was refused is followed by a reading like any other.
-/

namespace DdsOrchestrator.Studio

open Catalog

/-- The catalog after the first `n` events of a history. -/
def upTo (h : List Accepted) (n : ℕ) : Catalog := run ((h.take n).map Accepted.call)

namespace Catalog

variable {c : Catalog} {h : List Accepted}

/-! ### Snapshots -/

theorem map_id_views (c : Catalog) : c.views.map ItemView.id = c.items.keys := by
  simp [views, AList.keys, List.keys, Function.comp_def]

theorem perm_snapshot (c : Catalog) : c.snapshot.items.Perm c.views := List.mergeSort_perm _ _

theorem pairwise_snapshot (c : Catalog) :
    c.snapshot.items.Pairwise fun a b => a.id ≤ b.id := by
  have htrans : ∀ a b d : ItemView, decide (a.id ≤ b.id) = true → decide (b.id ≤ d.id) = true →
      decide (a.id ≤ d.id) = true := by
    intro a b d hab hbd
    rw [decide_eq_true_eq] at hab hbd ⊢
    exact String.le_trans hab hbd
  have htotal : ∀ a b : ItemView, (decide (a.id ≤ b.id) || decide (b.id ≤ a.id)) = true := by
    intro a b
    rw [Bool.or_eq_true, decide_eq_true_eq, decide_eq_true_eq]
    exact String.le_total _ _
  have hsorted := List.pairwise_mergeSort htrans htotal c.views
  exact hsorted.imp fun h => by simpa using h

/-- The items of a snapshot are known by their order and by what they are. -/
theorem eq_snapshot {items : List ItemView} (hperm : items.Perm c.views)
    (hsorted : items.Pairwise fun a b => a.id ≤ b.id) : items = c.snapshot.items := by
  have hnodup : (c.views.map ItemView.id).Nodup := by
    rw [map_id_views]
    exact c.items.keys_nodup
  refine (hperm.trans c.perm_snapshot.symm).eq_of_pairwise ?_ hsorted c.pairwise_snapshot
  intro a b ha hb hab hba
  exact List.inj_on_of_nodup_map hnodup (hperm.mem_iff.mp ha) (c.perm_snapshot.mem_iff.mp hb)
    (String.le_antisymm hab hba)

theorem views_of_deleted {d : Accepted} {r : Revision} (hok : (c.perform d.call).1 = .ok r)
    (hkind : d.kind = .deleted) :
    (c.after d.call).views = c.views.filter fun v => v.id ≠ d.call.id := by
  obtain ⟨call, revision⟩ := d
  obtain ⟨e', he⟩ | ⟨r', c', hr, hc⟩ := perform_cases c call
  · rw [he] at hok
    cases hok
  · rw [after, hr]
    cases hc with
    | create => cases hkind
    | update => cases hkind
    | delete =>
        simp only [views, pushEvent_items, Map.entries_erase, List.filter_map]
        rfl

/-- Deletions take their ids out and leave the other items. -/
theorem views_deletions {ds : List Accepted} (hok : AllAccepted c (ds.map Accepted.call))
    (hkind : ∀ d ∈ ds, d.kind = .deleted) :
    ((ds.map Accepted.call).foldl after c).views =
      c.views.filter fun v => v.id ∉ ds.map (·.call.id) := by
  induction ds generalizing c with
  | nil => simp
  | cons d ds ih =>
      obtain ⟨⟨r, hr⟩, hrest⟩ := hok
      have hd := views_of_deleted hr (hkind d List.mem_cons_self)
      rw [List.map_cons, List.foldl_cons, ih hrest fun d hd => hkind d (List.mem_cons_of_mem _ hd),
        hd, List.filter_filter]
      congr 1
      funext v
      simp [Bool.and_comm]

end Catalog

/-! ### Items and cursor -/

/-- The items are those of the node after as many events as the cursor says. -/
def Pairs (h : List Accepted) (items : List ItemView) (cursor : ℕ) : Prop :=
  cursor ≤ h.length ∧ items = (upTo h cursor).snapshot.items

variable {h more : List Accepted} {items : List ItemView} {cursor n : ℕ}

theorem upTo_append (hn : n ≤ h.length) (more : List Accepted) :
    upTo (h ++ more) n = upTo h n := by
  rw [upTo, upTo, List.take_append_of_le_length hn]

theorem Pairs.append (hp : Pairs h items cursor) (more : List Accepted) :
    Pairs (h ++ more) items cursor := by
  refine ⟨?_, ?_⟩
  · rw [List.length_append]
    exact Nat.le_add_right_of_le hp.1
  · rw [upTo_append hp.1]
    exact hp.2

/-- The events of a batch: those from the cursor on, when the node had `n` of them. -/
def Batch (h : List Accepted) (cursor : ℕ) (events : List Event) : Prop :=
  ∃ n, cursor ≤ n ∧ n ≤ h.length ∧ events = (eventsOf (h.take n)).drop cursor

theorem Batch.append {events : List Event} (hb : Batch h cursor events)
    (more : List Accepted) : Batch (h ++ more) cursor events := by
  obtain ⟨n, hcn, hn, hevents⟩ := hb
  refine ⟨n, hcn, ?_, ?_⟩
  · rw [List.length_append]
    exact Nat.le_add_right_of_le hn
  · rw [List.take_append_of_le_length hn]
    exact hevents

theorem map_eventsOf {β : Type*} (f : Event → β) (g : Accepted → β)
    (hfg : ∀ a seq, f (a.event seq) = g a) (h : List Accepted) :
    (eventsOf h).map f = h.map g := by
  induction h using List.reverseRecOn with
  | nil => rfl
  | append_singleton h a ih =>
      rw [eventsOf_concat, List.map_append, List.map_append, ih]
      simp [hfg]

/-- The cursor behind a batch. -/
def cursorBehind (cursor : ℕ) (events : List Event) : ℕ :=
  (events.getLast?.map (·.seq + 1)).getD cursor

theorem cursorBehind_drop (hcn : cursor ≤ h.length) :
    cursorBehind cursor ((eventsOf h).drop cursor) = h.length := by
  rcases List.eq_nil_or_concat h with rfl | ⟨init, a, rfl⟩
  · have hzero : cursor = 0 := by simpa using hcn
    subst hzero
    rfl
  · rw [List.concat_eq_append] at hcn ⊢
    rw [eventsOf_concat]
    have hlen := length_eventsOf init
    rw [List.length_append, List.length_singleton] at hcn ⊢
    rcases Nat.lt_or_ge cursor (init.length + 1) with hlt | hge
    · rw [cursorBehind, List.drop_append_of_le_length (by omega), List.getLast?_append]
      rfl
    · have hnil : (eventsOf init ++ [a.event init.length]).drop cursor = [] := by
        rw [List.drop_eq_nil_iff, List.length_append, List.length_singleton]
        omega
      rw [hnil]
      show cursor = init.length + 1
      omega

theorem Batch.cursorBehind_eq {events : List Event} (hb : Batch h cursor events) :
    ∃ n, n ≤ h.length ∧ cursor ≤ n ∧ events = (eventsOf (h.take n)).drop cursor ∧
      cursorBehind cursor events = n := by
  obtain ⟨n, hcn, hn, rfl⟩ := hb
  have hlen : (h.take n).length = n := List.length_take_of_le hn
  refine ⟨n, hn, hcn, rfl, ?_⟩
  rw [cursorBehind_drop (by omega), hlen]

/-- A batch of deletions takes the items to its end. -/
theorem Pairs.deletions (hp : Pairs h items cursor)
    (haccepted : AllAccepted .new (h.map Accepted.call)) {events : List Event}
    (hb : Batch h cursor events) (hdeleted : ∀ event ∈ events, event.kind = .deleted) :
    Pairs h (items.filter fun item => item.id ∉ events.map Event.id)
      (cursorBehind cursor events) := by
  obtain ⟨n, hn, hcn, rfl, hend⟩ := hb.cursorBehind_eq
  -- the accepted calls behind the batch
  obtain ⟨ds, hds⟩ : ∃ ds, (h.take n).drop cursor = ds := ⟨_, rfl⟩
  have hsplit : h.take n = h.take cursor ++ ds := by
    have hcut := (List.take_append_drop cursor (h.take n)).symm
    rwa [List.take_take, Nat.min_eq_left hcn, hds] at hcut
  have hids : ((eventsOf (h.take n)).drop cursor).map Event.id = ds.map (·.call.id) := by
    rw [List.map_drop, map_eventsOf Event.id (·.call.id) (fun _ _ => rfl), ← List.map_drop, hds]
  have hkind : ∀ d ∈ ds, d.kind = .deleted := by
    have hkinds : ((eventsOf (h.take n)).drop cursor).map Event.kind = ds.map Accepted.kind := by
      rw [List.map_drop, map_eventsOf Event.kind Accepted.kind (fun _ _ => rfl), ← List.map_drop,
        hds]
    intro d hd
    obtain ⟨event, hevent, heq⟩ := List.mem_map.mp (hkinds ▸ List.mem_map_of_mem hd)
    exact heq ▸ hdeleted event hevent
  have hupTo : upTo h n = (ds.map Accepted.call).foldl after (upTo h cursor) := by
    rw [upTo, hsplit, List.map_append, run, List.foldl_append]
    rfl
  have hok : AllAccepted (upTo h cursor) (ds.map Accepted.call) := by
    have hwhole : AllAccepted .new ((h.take cursor ++ ds ++ h.drop n).map Accepted.call) := by
      rw [← hsplit, List.take_append_drop]
      exact haccepted
    rw [List.map_append, List.map_append, AllAccepted, Machine.along_append,
      Machine.along_append] at hwhole
    exact hwhole.1.2
  rw [hend, hids]
  refine ⟨hn, ?_⟩
  apply eq_snapshot
  · rw [hupTo, views_deletions hok hkind, hp.2]
    exact (upTo h cursor).perm_snapshot.filter _
  · rw [hp.2]
    exact (upTo h cursor).pairwise_snapshot.filter _

/-! ### Messages -/

/-- The snapshot that came with a message, or the reading that failed. -/
def CatalogMsg.reading : CatalogMsg → Option (Except String Snapshot)
  | .snapshot result => some result
  | .mutated _ thenSnapshot _ _ _ _ => thenSnapshot
  | .followed (.applied _ result) | .followed (.resync result) => some result
  | .followed (.failed err) => some (.error err)
  | .followed .upToDate | .followed (.deleted _) => none

/-- The deletions that came with a message. -/
def CatalogMsg.deletions : CatalogMsg → Option (List Event)
  | .followed (.deleted events) => some events
  | _ => none

namespace SharedCatalog

variable {s : SharedCatalog} {msg : CatalogMsg}

theorem start_receiver (s : SharedCatalog) (w : Worker) (notice : String) :
    (s.start w notice).receiver = s.receiver ∨
      (s.start w notice).receiver = some (.working w) := by
  unfold start
  split
  · exact .inl rfl
  · exact .inr rfl

theorem start_shown (s : SharedCatalog) (w : Worker) (notice : String) :
    (s.start w notice).snapshot = s.snapshot ∧ (s.start w notice).cursor = s.cursor := by
  unfold start
  split
  · exact ⟨rfl, rfl⟩
  · exact ⟨rfl, rfl⟩

/-- A message with a fresh snapshot shows it with its cursor. -/
theorem apply_fresh {fresh : Snapshot} (h : msg.reading = some (.ok fresh)) :
    (s.apply msg).1.snapshot = some fresh ∧ (s.apply msg).1.cursor = fresh.cursor := by
  match msg with
  | .snapshot result =>
      obtain rfl := Option.some.inj h
      exact ⟨rfl, rfl⟩
  | .mutated notice thenSnapshot id base isDelete result =>
      obtain rfl : thenSnapshot = some (.ok fresh) := h
      exact ⟨rfl, rfl⟩
  | .followed (.applied events snapshot) =>
      obtain rfl := Option.some.inj h
      exact ⟨rfl, rfl⟩
  | .followed (.resync snapshot) =>
      obtain rfl := Option.some.inj h
      exact ⟨rfl, rfl⟩

theorem apply_deletions {events : List Event} (h : msg.deletions = some events) :
    (s.apply msg).1.snapshot = (s.snapshot.map fun shown =>
        { shown with items := shown.items.filter fun item => item.id ∉ events.map Event.id }) ∧
      (s.apply msg).1.cursor = cursorBehind s.cursor events := by
  match msg with
  | .followed (.deleted batch) =>
      obtain rfl := Option.some.inj h
      exact ⟨rfl, rfl⟩

/-- Any other message leaves what is shown. -/
theorem apply_other (hreading : ∀ fresh, msg.reading ≠ some (.ok fresh))
    (hdeletions : msg.deletions = none) :
    (s.apply msg).1.snapshot = s.snapshot ∧ (s.apply msg).1.cursor = s.cursor := by
  match msg with
  | .snapshot (.ok fresh) => exact absurd rfl (hreading fresh)
  | .snapshot (.error err) => exact ⟨rfl, rfl⟩
  | .mutated notice (some (.ok fresh)) id base isDelete result => exact absurd rfl (hreading fresh)
  | .mutated notice (some (.error err)) id base isDelete result =>
      simp only [apply, applyMutated]
      split <;> exact ⟨rfl, rfl⟩
  | .mutated notice none id base isDelete result =>
      simp only [apply, applyMutated]
      split <;> exact ⟨rfl, rfl⟩
  | .followed (.applied events (.ok fresh)) => exact absurd rfl (hreading fresh)
  | .followed (.applied events (.error err)) => exact ⟨rfl, rfl⟩
  | .followed (.resync (.ok fresh)) => exact absurd rfl (hreading fresh)
  | .followed (.resync (.error err)) => exact ⟨rfl, rfl⟩
  | .followed .upToDate => exact ⟨rfl, rfl⟩
  | .followed (.failed err) => exact ⟨rfl, rfl⟩

theorem poll_shown (h : s.receiver = some (.ready msg)) :
    s.poll.snapshot = (s.apply msg).1.snapshot ∧ s.poll.cursor = (s.apply msg).1.cursor := by
  simp only [poll, h]
  split
  · exact start_shown _ _ _
  · exact ⟨rfl, rfl⟩

theorem poll_of_not_ready (h : ∀ msg, s.receiver ≠ some (.ready msg)) : s.poll = s := by
  unfold poll
  split
  · next msg hmsg => exact absurd hmsg (h msg)
  · rfl

end SharedCatalog

/-! ### Runs -/

namespace SharedWorld

variable (serde : SerdeJson)

/-- What the node acknowledges in an exchange. -/
def acknowledgedTo (node : CatalogAuthority) (wire : Wire) : Worker → List Accepted
  | .mutate _ _ _ entry =>
      match wire with
      | .answered io | .lost io _ => node.acknowledged serde (.call entry io)
      | .failed _ => []
  | .snapshot | .reread _ _ _ _ | .events _ | .applied _ | .resync => []

/-- What the node acknowledges in a step, to the Studio or to another client. -/
def acknowledged (w : SharedWorld) : SharedStep → List Accepted
  | .node event => w.node.acknowledged serde event
  | .exchange wire =>
      match w.studio.receiver with
      | some (.working worker) => acknowledgedTo serde w.node wire worker
      | _ => []
  | .refresh | .followEvents | .forceSync | .publishForm _ | .deleteForm _ | .poll => []

def run (path url : String) (steps : List SharedStep) : SharedWorld :=
  steps.foldl (step serde) (init path url)

/-- The accepted mutations of a run in the order in which the node made them. -/
def historyOf (path url : String) (steps : List SharedStep) : List Accepted :=
  Machine.trace (step serde) (acknowledged serde) (init path url) steps

/-- What a message brings was so at the node. -/
structure Brings (h : List Accepted) (cursor : ℕ) (msg : CatalogMsg) : Prop where
  fresh : ∀ fresh, msg.reading = some (.ok fresh) → Pairs h fresh.items fresh.cursor
  deletions : ∀ events, msg.deletions = some events →
    Batch h cursor events ∧ ∀ event ∈ events, event.kind = .deleted

/-- The worker asks from the cursor that is held, and its message was so at the node. -/
def Underway (h : List Accepted) (s : SharedCatalog) : Prop :=
  match s.receiver with
  | some (.working (.events since)) => since = s.cursor
  | some (.ready msg) => Brings h s.cursor msg
  | _ => True

structure Paired (path : String) (h : List Accepted) (w : SharedWorld) : Prop where
  node : CatalogAuthority.Holds path (h.map Accepted.call) w.node
  history : Catalog.history (h.map Accepted.call) = h
  shown : ∀ s, w.studio.snapshot = some s → Pairs h s.items w.studio.cursor
  cursor : w.studio.cursor ≤ h.length
  underway : Underway h w.studio

variable {serde} {path url : String} {h : List Accepted} {w : SharedWorld}

theorem Brings.append {msg : CatalogMsg} {cursor : ℕ} (hb : Brings h cursor msg)
    (more : List Accepted) : Brings (h ++ more) cursor msg where
  fresh fresh hfresh := (hb.fresh fresh hfresh).append more
  deletions events hevents :=
    ⟨(hb.deletions events hevents).1.append more, (hb.deletions events hevents).2⟩

theorem Underway.append {s : SharedCatalog} (hu : Underway h s) (more : List Accepted) :
    Underway (h ++ more) s := by
  unfold Underway at hu ⊢
  split
  · next since hwork =>
      rw [hwork] at hu
      exact hu
  · next msg hready =>
      rw [hready] at hu
      exact hu.append more
  · trivial

/-- The node goes on by itself. -/
theorem Paired.onNode (hp : Paired path h w) {more : List Accepted} {node : CatalogAuthority}
    (hnode : CatalogAuthority.Holds path ((h ++ more).map Accepted.call) node)
    (hhistory : Catalog.history ((h ++ more).map Accepted.call) = h ++ more) :
    Paired path (h ++ more) { w with node := node } where
  node := hnode
  history := hhistory
  shown s hs := (hp.shown s hs).append more
  cursor := by
    rw [List.length_append]
    exact Nat.le_add_right_of_le hp.cursor
  underway := hp.underway.append more

/-- The Studio starts a worker, or does not. -/
theorem Paired.start (hp : Paired path h w) {worker : Worker} {notice : String}
    (hworker : ∀ since, worker = .events since → since = w.studio.cursor) :
    Paired path h { w with studio := w.studio.start worker notice } where
  node := hp.node
  history := hp.history
  shown s hs := by
    obtain ⟨hsnapshot, hcursor⟩ := w.studio.start_shown worker notice
    rw [hsnapshot] at hs
    show Pairs h s.items (w.studio.start worker notice).cursor
    rw [hcursor]
    exact hp.shown s hs
  cursor := by
    show (w.studio.start worker notice).cursor ≤ h.length
    rw [(w.studio.start_shown worker notice).2]
    exact hp.cursor
  underway := by
    show Underway h (w.studio.start worker notice)
    unfold SharedCatalog.start
    split
    · exact hp.underway
    · unfold Underway
      split
      · next since heq =>
          cases heq
          exact hworker since rfl
      · next msg heq => cases heq
      · trivial

theorem Paired.nextSeq (hp : Paired path h w) : w.node.catalog.nextSeq = h.length := by
  rw [hp.node.catalog, (tells_run _).nextSeq, hp.history]

/-- A snapshot of the node belongs to all of its events. -/
theorem Paired.fetchSnapshot (hp : Paired path h w) {wire : Wire} {fresh : Snapshot}
    (hfresh : Studio.fetchSnapshot url w.node wire = .ok fresh) :
    Pairs h fresh.items fresh.cursor := by
  cases wire with
  | answered io =>
      cases hfresh
      refine ⟨hp.nextSeq.le, ?_⟩
      show w.node.catalog.snapshot.items = (upTo h w.node.catalog.nextSeq).snapshot.items
      rw [hp.nextSeq, upTo, List.take_length, hp.node.catalog]
  | failed f => cases hfresh
  | lost io f => cases hfresh

/-- The events of the node are a batch. -/
theorem Paired.requestEvents (hp : Paired path h w) {since : ℕ} {wire : Wire}
    {events : List Event} (hevents : Studio.requestEvents url w.node since wire = .ok events) :
    Batch h since events := by
  cases wire with
  | answered io =>
      have hsince := (tells_run (h.map Accepted.call)).eventsSince since
      rw [← hp.node.catalog, hp.history] at hsince
      simp only [Studio.requestEvents, CatalogAuthority.eventsSince, hsince] at hevents
      split at hevents
      · next batch heq =>
          cases hevents
          split at heq
          · next hin =>
              cases heq
              refine ⟨h.length, ?_, le_refl _, ?_⟩
              · rw [← hp.nextSeq]
                exact hin.2
              · rw [List.take_length]
          · cases heq
      · cases hevents
  | failed f => cases hevents
  | lost io f => cases hevents

theorem Paired.receive (hp : Paired path h w) {r : Receiver}
    (hr : Underway h { w.studio with receiver := some r }) :
    Paired path h { w with studio := { w.studio with receiver := some r } } where
  node := hp.node
  history := hp.history
  shown := hp.shown
  cursor := hp.cursor
  underway := hr

theorem brings_of_fetch (hp : Paired path h w) {msg : CatalogMsg} (wire : Wire) {cursor : ℕ}
    (hreading : msg.reading = some (Studio.fetchSnapshot url w.node wire))
    (hdeletions : msg.deletions = none) : Brings h cursor msg where
  fresh fresh hfresh := by
    rw [hreading, Option.some.injEq] at hfresh
    exact hp.fetchSnapshot hfresh
  deletions events hevents := by
    rw [hdeletions] at hevents
    cases hevents

theorem brings_nothing {msg : CatalogMsg} {cursor : ℕ}
    (hreading : ∀ fresh, msg.reading ≠ some (.ok fresh)) (hdeletions : msg.deletions = none) :
    Brings h cursor msg where
  fresh fresh hfresh := absurd hfresh (hreading fresh)
  deletions events hevents := by
    rw [hdeletions] at hevents
    cases hevents

/-- An exchange that only reads. -/
theorem Paired.read (hp : Paired path h w) {worker : Worker} (wire : Wire)
    (hworking : w.studio.receiver = some (.working worker))
    (hread : ∀ id base isDelete entry, worker ≠ .mutate id base isDelete entry) :
    Paired path h
      ⟨(worker.exchange serde w.studio.url w.node wire).1,
        { w.studio with
          receiver := some (worker.exchange serde w.studio.url w.node wire).2 }⟩ := by
  cases worker with
  | snapshot => exact hp.receive (brings_of_fetch hp wire rfl rfl)
  | mutate id base isDelete entry => exact absurd rfl (hread id base isDelete entry)
  | reread id base isDelete result =>
      exact hp.receive (brings_of_fetch hp wire rfl rfl)
  | events since =>
      have hsince : since = w.studio.cursor := by
        have hunderway := hp.underway
        rw [Underway, hworking] at hunderway
        exact hunderway
      simp only [Worker.exchange]
      split
      · exact hp.receive (brings_nothing (fun fresh => by simp [CatalogMsg.reading]) rfl)
      · next batch _ hbatch =>
          split
          · next hdeleted =>
              refine hp.receive ⟨fun fresh hfresh => by simp [CatalogMsg.reading] at hfresh, ?_⟩
              rintro events hevents
              obtain rfl := Option.some.inj hevents
              exact ⟨hsince ▸ hp.requestEvents hbatch, hdeleted⟩
          · exact hp.receive trivial
      · exact hp.receive trivial
      · exact hp.receive (brings_nothing (fun fresh => by simp [CatalogMsg.reading]) rfl)
  | applied batch =>
      exact hp.receive (brings_of_fetch hp wire rfl rfl)
  | resync => exact hp.receive (brings_of_fetch hp wire rfl rfl)

/-- What is applied is what was brought. -/
theorem Paired.poll (hp : Paired path h w) :
    Paired path h { w with studio := w.studio.poll } := by
  rcases hready : w.studio.receiver with _ | ⟨worker⟩ | ⟨msg⟩
  · rw [SharedCatalog.poll_of_not_ready (by simp [hready])]
    exact hp
  · rw [SharedCatalog.poll_of_not_ready (by simp [hready])]
    exact hp
  · have hbrings : Brings h w.studio.cursor msg := by
      have hunderway := hp.underway
      rw [Underway, hready] at hunderway
      exact hunderway
    have happlied : (∀ s, (w.studio.apply msg).1.snapshot = some s →
        Pairs h s.items (w.studio.apply msg).1.cursor) ∧
        (w.studio.apply msg).1.cursor ≤ h.length := by
      by_cases hfresh : ∃ fresh, msg.reading = some (.ok fresh)
      · obtain ⟨fresh, hfresh⟩ := hfresh
        obtain ⟨hsnap, hcur⟩ := SharedCatalog.apply_fresh (s := w.studio) hfresh
        rw [hsnap, hcur]
        have hpairs := hbrings.fresh fresh hfresh
        refine ⟨?_, hpairs.1⟩
        rintro s hs
        obtain rfl := Option.some.inj hs
        exact hpairs
      · cases hdeletions : msg.deletions with
        | none =>
            obtain ⟨hsnap, hcur⟩ :=
              SharedCatalog.apply_other (s := w.studio) (not_exists.mp hfresh) hdeletions
            rw [hsnap, hcur]
            exact ⟨hp.shown, hp.cursor⟩
        | some events =>
            obtain ⟨hbatch, hdeleted⟩ := hbrings.deletions events hdeletions
            obtain ⟨hsnap, hcur⟩ :=
              SharedCatalog.apply_deletions (s := w.studio) hdeletions
            rw [hsnap, hcur]
            refine ⟨?_, ?_⟩
            · rintro s hs
              obtain ⟨before, hbefore, rfl⟩ := Option.map_eq_some_iff.mp hs
              exact (hp.shown before hbefore).deletions hp.node.accepted hbatch hdeleted
            · obtain ⟨n, hn, -, -, hend⟩ := hbatch.cursorBehind_eq
              rw [hend]
              exact hn
    have hdone : Paired path h
        { w with studio := { (w.studio.apply msg).1 with receiver := none, busy := false } } :=
      ⟨hp.node, hp.history, happlied.1, happlied.2, trivial⟩
    simp only [SharedCatalog.poll, hready]
    split
    · apply hdone.start
      intro since heq
      cases heq
      rfl
    · exact hdone

/-- A mutation by the Studio: what the node acknowledges is behind its history. -/
theorem Paired.mutate (hread : ∀ e : JournalEntry, serde.entryFromStr e.toText = .ok e)
    (hp : Paired path h w) {id : String} {base : Option UInt64} {isDelete : Bool}
    {entry : JournalEntry}
    (hworking : w.studio.receiver = some (.working (.mutate id base isDelete entry)))
    (wire : Wire) :
    Paired path (h ++ w.acknowledged serde (.exchange wire)) (w.step serde (.exchange wire)) := by
  have hnode : ∀ io, Paired path (h ++ w.node.acknowledged serde (.call entry io))
      { w with node := (w.node.mutate serde entry io).2 } := by
    intro io
    obtain ⟨hholds, hnext⟩ := hp.node.step hread (.call entry io)
    rw [hp.history, ← List.map_append] at hnext
    rw [← List.map_append] at hholds
    exact hp.onNode hholds hnext
  cases wire with
  | answered io =>
      simp only [acknowledged, acknowledgedTo, SharedWorld.step, hworking, Worker.exchange,
        requestMutation]
      exact (hnode io).receive trivial
  | failed f =>
      simp only [acknowledged, acknowledgedTo, SharedWorld.step, hworking, Worker.exchange,
        requestMutation, List.append_nil]
      exact hp.receive trivial
  | lost io f =>
      simp only [acknowledged, acknowledgedTo, SharedWorld.step, hworking, Worker.exchange,
        requestMutation]
      exact (hnode io).receive trivial

theorem Paired.step (hread : ∀ e : JournalEntry, serde.entryFromStr e.toText = .ok e)
    (hp : Paired path h w) (move : SharedStep) :
    Paired path (h ++ w.acknowledged serde move) (w.step serde move) := by
  have hstart : ∀ worker notice, (∀ since, worker ≠ .events since) →
      Paired path h { w with studio := w.studio.start worker notice } := fun worker notice hne =>
    hp.start fun since heq => absurd heq (hne since)
  cases move with
  | node event =>
      obtain ⟨hholds, hnext⟩ := hp.node.step hread event
      rw [hp.history, ← List.map_append] at hnext
      rw [← List.map_append] at hholds
      exact hp.onNode hholds hnext
  | refresh =>
      rw [acknowledged, List.append_nil]
      exact hstart _ _ (by simp)
  | followEvents =>
      rw [acknowledged, List.append_nil]
      exact hp.start fun since heq => by cases heq; rfl
  | forceSync =>
      rw [acknowledged, List.append_nil]
      show Paired path h { w with studio := w.studio.forceSync }
      unfold SharedCatalog.forceSync
      split
      · exact hp
      · have hflag : Paired path h { w with studio := { w.studio with followAfter := true } } :=
          ⟨hp.node, hp.history, hp.shown, hp.cursor, hp.underway⟩
        exact hflag.start fun since heq => by cases heq
  | publishForm form =>
      rw [acknowledged, List.append_nil]
      exact hstart _ _ (by simp)
  | deleteForm form =>
      rw [acknowledged, List.append_nil]
      exact hstart _ _ (by simp)
  | poll =>
      rw [acknowledged, List.append_nil]
      exact hp.poll
  | exchange wire =>
      rcases hreceiver : w.studio.receiver with _ | ⟨worker⟩ | ⟨msg⟩
      · simp only [acknowledged, SharedWorld.step, hreceiver, List.append_nil]
        exact hp
      · by_cases hmutate : ∃ id base isDelete entry, worker = .mutate id base isDelete entry
        · obtain ⟨id, base, isDelete, entry, rfl⟩ := hmutate
          exact hp.mutate hread hreceiver wire
        · simp only [not_exists] at hmutate
          have hnothing : acknowledgedTo serde w.node wire worker = [] := by
            cases worker with
            | mutate id base isDelete entry => exact absurd rfl (hmutate id base isDelete entry)
            | snapshot | reread | events | applied | resync => rfl
          simp only [acknowledged, hreceiver, hnothing, List.append_nil, SharedWorld.step]
          exact hp.read wire hreceiver hmutate
      · simp only [acknowledged, SharedWorld.step, hreceiver, List.append_nil]
        exact hp

theorem paired_run (hread : ∀ e : JournalEntry, serde.entryFromStr e.toText = .ok e)
    (path url : String) (steps : List SharedStep) :
    Paired path (historyOf serde path url steps) (run serde path url steps) := by
  have hrun : Machine.Along (step serde) (fun _ _ => True) (init path url) steps :=
    Machine.along_iff_forall.mpr fun _ _ _ _ => trivial
  have hinit : Paired path [] (init path url) :=
    ⟨⟨rfl, ⟨none, rfl, rfl⟩, trivial⟩, rfl, fun s hs => absurd hs (by simp [init,
      SharedCatalog.withUrl]), Nat.le_refl _, trivial⟩
  exact hrun.trace_invariant_nil hinit fun h w move hp _ => hp.step hread move

/-! ### A mutation and the reading behind it -/

/-- The worker is not behind a mutation. -/
def First (worker : Worker) : Prop :=
  ∀ id base isDelete result, worker ≠ .reread id base isDelete result

theorem start_first (s : SharedCatalog) {worker : Worker} (hfirst : First worker)
    (notice : String) : (s.start worker notice).receiver = s.receiver ∨
      ∃ first, First first ∧ (s.start worker notice).receiver = some (.working first) :=
  (s.start_receiver worker notice).imp_right fun hbegun => ⟨worker, hfirst, hbegun⟩

/-- No worker is begun behind a mutation, and only an exchange takes one further. -/
theorem receiver_step (serde : SerdeJson) (w : SharedWorld) (move : SharedStep) :
    (w.step serde move).studio.receiver = w.studio.receiver ∨
      (w.step serde move).studio.receiver = none ∨
      (∃ first, First first ∧
        (w.step serde move).studio.receiver = some (.working first)) ∨
      ∃ wire worker, move = .exchange wire ∧ w.studio.receiver = some (.working worker) ∧
        (w.step serde move).studio.receiver =
          some (worker.exchange serde w.studio.url w.node wire).2 := by
  cases move with
  | node event => exact .inl rfl
  | refresh =>
      exact (start_first w.studio (by simp [First]) _).imp_right fun h => .inr (.inl h)
  | followEvents =>
      exact (start_first w.studio (by simp [First]) _).imp_right fun h => .inr (.inl h)
  | forceSync =>
      dsimp only [SharedWorld.step, SharedCatalog.forceSync]
      split
      · exact .inl rfl
      · exact (start_first { w.studio with followAfter := true } (by simp [First]) _).imp_right
          fun h => .inr (.inl h)
  | publishForm form =>
      exact (start_first w.studio (by simp [First]) _).imp_right fun h => .inr (.inl h)
  | deleteForm form =>
      exact (start_first w.studio (by simp [First]) _).imp_right fun h => .inr (.inl h)
  | exchange wire =>
      dsimp only [SharedWorld.step]
      split
      next worker hworking => exact .inr (.inr (.inr ⟨wire, worker, rfl, hworking, rfl⟩))
      next => exact .inl rfl
  | poll =>
      dsimp only [SharedWorld.step, SharedCatalog.poll]
      split
      next msg hready =>
        split
        · exact .inr ((start_first _ (by simp [First]) _).imp_right .inl)
        · exact .inr (.inl rfl)
      next => exact .inl rfl

/-- What the node answers about its events ends no mutation and begins no reading. -/
theorem exchange_events (node : CatalogAuthority) (wire : Wire) (since : ℕ) :
    (∀ notice thenSnapshot id base isDelete result,
      ((Worker.events since).exchange serde url node wire).2 ≠
        .ready (.mutated notice thenSnapshot id base isDelete result)) ∧
    ∀ worker, ((Worker.events since).exchange serde url node wire).2 = .working worker →
      First worker := by
  dsimp only [Worker.exchange]
  split
  · simp
  · split
    · simp
    · simp [First]
  · simp [First]
  · simp

theorem exchange_mutated {node : CatalogAuthority} {wire : Wire} {worker : Worker}
    {notice : String} {thenSnapshot : Option (Except String Snapshot)} {id : String}
    {base : Option UInt64} {isDelete : Bool} {result : Except SharedCatalogError UInt64}
    (h : (worker.exchange serde url node wire).2 =
      .ready (.mutated notice thenSnapshot id base isDelete result)) :
    worker = .reread id base isDelete result ∧
      thenSnapshot = some (Studio.fetchSnapshot url node wire) := by
  cases worker with
  | reread id base isDelete result =>
      cases h
      exact ⟨rfl, rfl⟩
  | events since => exact absurd h ((exchange_events node wire since).1 _ _ _ _ _ _)
  | snapshot | mutate | applied | resync => cases h

theorem exchange_reread {node : CatalogAuthority} {wire : Wire} {worker : Worker} {id : String}
    {base : Option UInt64} {isDelete : Bool} {result : Except SharedCatalogError UInt64}
    (h : (worker.exchange serde url node wire).2 = .working (.reread id base isDelete result)) :
    ∃ entry, worker = .mutate id base isDelete entry ∧
      result = (requestMutation serde url node entry wire).1 := by
  cases worker with
  | mutate id base isDelete entry =>
      cases h
      exact ⟨entry, rfl, rfl⟩
  | events since =>
      exact absurd rfl ((exchange_events node wire since).2 _ h id base isDelete result)
  | snapshot | reread | applied | resync => cases h

/-- What an exchange alone can bring about has been brought about by one. -/
theorem exists_exchange {r : Receiver} {path url : String} {steps : List SharedStep}
    (h : (run serde path url steps).studio.receiver = some r)
    (hlater : ∀ worker : Worker, First worker → r ≠ .working worker) :
    ∃ before wire after worker, steps = before ++ .exchange wire :: after ∧
      (run serde path url before).studio.receiver = some (.working worker) ∧
      (worker.exchange serde (run serde path url before).studio.url
        (run serde path url before).node wire).2 = r := by
  obtain ⟨before, move, after, hsteps, hbefore, hafter⟩ :=
    Machine.exists_step_of_not (Q := fun w : SharedWorld => w.studio.receiver = some r)
      (by simp [init, SharedCatalog.withUrl]) h
  rcases receiver_step serde (run serde path url before) move with
    hsame | hnone | ⟨worker, hfirst, hbegun⟩ | ⟨wire, worker, rfl, hworking, hexchange⟩
  · exact absurd (hsame.symm.trans hafter) hbefore
  · cases hnone.symm.trans hafter
  · exact absurd (Option.some.inj (hafter.symm.trans hbegun)) (hlater worker hfirst)
  · exact ⟨before, wire, after, worker, hsteps, hworking,
      Option.some.inj (hexchange.symm.trans hafter)⟩

/-- A mutation has been made with this result, and a reading behind it. -/
def Reread (serde : SerdeJson) (path url : String) (steps : List SharedStep)
    (thenSnapshot : Option (Except String Snapshot))
    (result : Except SharedCatalogError UInt64) : Prop :=
  ∃ before wire between wire' after entry,
    steps = before ++ .exchange wire :: (between ++ .exchange wire' :: after) ∧
      result = (requestMutation serde (run serde path url before).studio.url
        (run serde path url before).node entry wire).1 ∧
      thenSnapshot = some (fetchSnapshot
        (run serde path url (before ++ .exchange wire :: between)).studio.url
        (run serde path url (before ++ .exchange wire :: between)).node wire')

theorem reread_of_mutated {path url : String} {steps : List SharedStep} {notice : String}
    {thenSnapshot : Option (Except String Snapshot)} {id : String} {base : Option UInt64}
    {isDelete : Bool} {result : Except SharedCatalogError UInt64}
    (h : (run serde path url steps).studio.receiver =
      some (.ready (.mutated notice thenSnapshot id base isDelete result))) :
    Reread serde path url steps thenSnapshot result := by
  obtain ⟨made, wire', after, worker, rfl, hworking, hread⟩ := exists_exchange h (by simp)
  obtain ⟨rfl, hsnapshot⟩ := exchange_mutated hread
  obtain ⟨before, wire, between, worker, rfl, -, hmade⟩ :=
    exists_exchange hworking fun worker hfirst heq => hfirst id base isDelete result
      (Receiver.working.inj heq).symm
  obtain ⟨entry, -, hresult⟩ := exchange_reread hmade
  exact ⟨before, wire, between, wire', after, entry, by simp, hresult, hsnapshot⟩

end SharedWorld

open SharedWorld

theorem CatalogMsg.deletions_of_failed {msg : CatalogMsg} {err : String}
    (h : msg.reading = some (.error err)) : msg.deletions = none := by
  match msg with
  | .snapshot _ | .mutated _ _ _ _ _ _ => rfl
  | .followed (.applied _ _) | .followed (.resync _) | .followed (.failed _) => rfl

/-- In every run the items that are shown are those of the node after as many events as
the cursor says; a reading that failed leaves items and cursor, and one that succeeded,
behind whatever it came, sets both. A mutation, refused or not, has been followed by one. -/
theorem items_at_cursor {serde : SerdeJson}
    (hread : ∀ e : JournalEntry, serde.entryFromStr e.toText = .ok e) (path url : String)
    (steps : List SharedStep) :
    (SharedWorld.run serde path url steps).node.catalog =
        Catalog.run ((historyOf serde path url steps).map Accepted.call) ∧
      Catalog.history ((historyOf serde path url steps).map Accepted.call) =
        historyOf serde path url steps ∧
      (∀ s, (SharedWorld.run serde path url steps).studio.snapshot = some s →
        Pairs (historyOf serde path url steps) s.items
          (SharedWorld.run serde path url steps).studio.cursor) ∧
      ∀ msg, (SharedWorld.run serde path url steps).studio.receiver = some (.ready msg) →
        (∀ err, msg.reading = some (.error err) →
          (SharedWorld.run serde path url steps).studio.poll.snapshot =
              (SharedWorld.run serde path url steps).studio.snapshot ∧
            (SharedWorld.run serde path url steps).studio.poll.cursor =
              (SharedWorld.run serde path url steps).studio.cursor) ∧
        (∀ fresh, msg.reading = some (.ok fresh) →
          (SharedWorld.run serde path url steps).studio.poll.snapshot = some fresh ∧
            (SharedWorld.run serde path url steps).studio.poll.cursor = fresh.cursor) ∧
        ∀ notice thenSnapshot id base isDelete result,
          msg = .mutated notice thenSnapshot id base isDelete result →
            Reread serde path url steps thenSnapshot result := by
  have hpaired := paired_run hread path url steps
  refine ⟨hpaired.node.catalog, hpaired.history, hpaired.shown, fun msg hready =>
    ⟨?_, ?_, ?_⟩⟩
  · intro err hfailed
    obtain ⟨hsnapshot, hcursor⟩ := SharedCatalog.poll_shown hready
    rw [hsnapshot, hcursor]
    apply SharedCatalog.apply_other
    · intro fresh hfresh
      rw [hfailed] at hfresh
      cases hfresh
    · exact CatalogMsg.deletions_of_failed hfailed
  · intro fresh hfresh
    obtain ⟨hsnapshot, hcursor⟩ := SharedCatalog.poll_shown hready
    rw [hsnapshot, hcursor]
    exact SharedCatalog.apply_fresh hfresh
  · rintro notice thenSnapshot id base isDelete result rfl
    exact reread_of_mutated hready

/-- A Studio that has read the empty catalog publishes an id that another client has
created since. -/
def lateCreation : List SharedStep :=
  [.refresh, .exchange (.answered .ok), .poll, .node (.call (.publish "a" none "v" 0) .ok),
    .publishForm ⟨"a", "w", none⟩, .exchange (.answered .ok), .exchange (.answered .ok)]

/-- The publication is refused, and what has been read behind it is what is shown then. -/
theorem late_creation_paired :
    let w := SharedWorld.run exactSerde "catalog.jsonl" "http://node" lateCreation
    let h := historyOf exactSerde "catalog.jsonl" "http://node" lateCreation
    (∀ s, w.studio.snapshot = some s → Pairs h s.items w.studio.cursor) ∧
      ∃ fresh : Snapshot, fresh.cursor = 1 ∧ w.studio.poll.snapshot = some fresh ∧
        Reread exactSerde "catalog.jsonl" "http://node" lateCreation (some (.ok fresh))
          (.error (.conflict (some 0))) := by
  intro w h
  obtain ⟨-, -, hshown, hmessage⟩ :=
    items_at_cursor exactSerde_read "catalog.jsonl" "http://node" lateCreation
  obtain ⟨-, hfresh, hmutated⟩ := hmessage _ rfl
  exact ⟨hshown, _, rfl, (hfresh _ rfl).1, hmutated _ _ _ _ _ _ rfl⟩

/-- The mutation or the reading of a message failed. -/
def CatalogMsg.reportsFailure : CatalogMsg → Bool
  | .mutated _ _ _ _ _ (.error _) => true
  | msg => match msg.reading with
    | some (.error _) => true
    | _ => false

/-- The conflict is reported, and the reading behind it is shown. -/
theorem conflict_is_reread :
    ¬ ∀ steps msg,
      (SharedWorld.run exactSerde "catalog.jsonl" "http://node" steps).studio.receiver =
          some (.ready msg) →
        msg.reportsFailure →
        (SharedWorld.run exactSerde "catalog.jsonl" "http://node" steps).studio.poll.snapshot =
            (SharedWorld.run exactSerde "catalog.jsonl" "http://node" steps).studio.snapshot ∧
          (SharedWorld.run exactSerde "catalog.jsonl" "http://node" steps).studio.poll.cursor =
            (SharedWorld.run exactSerde "catalog.jsonl" "http://node" steps).studio.cursor := by
  intro hunchanged
  have hcursor := (hunchanged lateCreation _ rfl rfl).2
  have hbefore : (SharedWorld.run exactSerde "catalog.jsonl" "http://node"
      lateCreation).studio.cursor = 0 := by rfl
  have hafter : (SharedWorld.run exactSerde "catalog.jsonl" "http://node"
      lateCreation).studio.poll.cursor = 1 := by rfl
  rw [hbefore, hafter] at hcursor
  cases hcursor

end DdsOrchestrator.Studio
