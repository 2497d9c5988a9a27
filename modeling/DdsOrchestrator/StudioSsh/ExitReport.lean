import Mathlib.Data.List.TakeWhile
import DdsOrchestrator.StudioSsh.Bridge

/-!
How a command ended, and when it is known. The server tells it once, anywhere before the
channel is closed; the bridge reads up to the end of the output. What is told behind that
is not heard, and a command of which nothing was heard counts as one that succeeded.
-/

namespace DdsOrchestrator.StudioSsh

inductive Report where
  | status (code : UInt32)
  | signal (name : String)
  deriving DecidableEq

namespace ChannelMsg

def report : ChannelMsg → Option Report
  | exitStatus code => some (.status code)
  | exitSignal name => some (.signal name)
  | _ => none

def stdoutBytes : ChannelMsg → List UInt8
  | data bytes => bytes
  | _ => []

def extendedBytes : ChannelMsg → List UInt8
  | extendedData bytes _ => bytes
  | _ => []

def stderrBytes : ChannelMsg → List UInt8
  | extendedData bytes ext => if ext = 1 then bytes else []
  | _ => []

/-- The message carries output. -/
def isOutput : ChannelMsg → Bool
  | data _ | extendedData _ _ => true
  | _ => false

/-- The bridge stops at the message. -/
def ends : ChannelMsg → Bool
  | eof | close => true
  | _ => false

end ChannelMsg

def reports (ms : List ChannelMsg) : List Report := ms.filterMap ChannelMsg.report

def stdoutOf (ms : List ChannelMsg) : List UInt8 := ms.flatMap ChannelMsg.stdoutBytes

def stderrOf (ms : List ChannelMsg) : List UInt8 := ms.flatMap ChannelMsg.stderrBytes

/-- Everything that came as extended data, of any type. -/
def extendedOf (ms : List ChannelMsg) : List UInt8 := ms.flatMap ChannelMsg.extendedBytes

/-- The messages that the bridge hears. -/
def heard (ms : List ChannelMsg) : List ChannelMsg := ms.takeWhile fun m => !m.ends

/-- What the protocol allows a server to send: the closing of the channel and nothing behind
it, no output behind the end of the output, and one report of how the command ended. -/
structure Allowed (ms : List ChannelMsg) : Prop where
  closed : ms.getLast? = some .close
  close_once : .close ∉ ms.dropLast
  quiet : ∀ m ∈ ms.dropWhile (· ≠ .eof), m.isOutput = false
  report_once : (reports ms).length ≤ 1

variable {target : SshTarget} {trust : List Approval} {io : SessionIo} {ms : List ChannelMsg}

/-! ### What is heard -/

theorem receive_eq_foldl : receive r ms = (heard ms).foldl Received.take r := by
  induction ms generalizing r with
  | nil => rfl
  | cons m ms ih =>
      cases m with
      | eof => rfl
      | close => rfl
      | _ => exact ih

/-- One more report on what is known of the end. -/
def note (known : Option UInt32 × Option String) : Report → Option UInt32 × Option String
  | .status code => (some code, known.2)
  | .signal name => (known.1, some name)

theorem take_stdout (r : Received) (m : ChannelMsg) :
    (r.take m).stdout = r.stdout ++ m.stdoutBytes := by
  cases m with
  | data bytes => rfl
  | extendedData bytes ext =>
      rw [Received.take]
      split
      · exact (List.append_nil _).symm
      · exact (List.append_nil _).symm
  | _ => exact (List.append_nil _).symm

theorem take_stderr (r : Received) (m : ChannelMsg) :
    (r.take m).stderr = r.stderr ++ m.stderrBytes := by
  cases m with
  | extendedData bytes ext =>
      rw [Received.take, ChannelMsg.stderrBytes]
      split
      · rfl
      · exact (List.append_nil _).symm
  | _ => exact (List.append_nil _).symm

theorem take_end (r : Received) (m : ChannelMsg) :
    ((r.take m).exitStatus, (r.take m).exitSignal) =
      m.report.toList.foldl note (r.exitStatus, r.exitSignal) := by
  cases m with
  | extendedData bytes ext =>
      rw [Received.take]
      split
      · rfl
      · rfl
  | _ => rfl

theorem reports_cons (m : ChannelMsg) : reports (m :: ms) = m.report.toList ++ reports ms := by
  rw [reports, List.filterMap_cons]
  cases m.report with
  | none => rfl
  | some report => rfl

theorem foldl_take (ms : List ChannelMsg) (r : Received) :
    (ms.foldl Received.take r).stdout = r.stdout ++ stdoutOf ms ∧
    (ms.foldl Received.take r).stderr = r.stderr ++ stderrOf ms ∧
    ((ms.foldl Received.take r).exitStatus, (ms.foldl Received.take r).exitSignal) =
      (reports ms).foldl note (r.exitStatus, r.exitSignal) := by
  induction ms generalizing r with
  | nil => exact ⟨(List.append_nil _).symm, (List.append_nil _).symm, rfl⟩
  | cons m ms ih =>
      obtain ⟨hout, herr, hend⟩ := ih (r := r.take m)
      rw [List.foldl_cons]
      refine ⟨?_, ?_, ?_⟩
      · rw [hout, take_stdout, List.append_assoc]
        rfl
      · rw [herr, take_stderr, List.append_assoc]
        rfl
      · rw [hend, take_end, reports_cons, List.foldl_append]

theorem reports_heard_prefix : reports (heard ms) <+: reports ms :=
  (List.takeWhile_prefix _).filterMap _

theorem not_ends_of_mem_heard {m : ChannelMsg} (h : m ∈ heard ms) : m.ends = false := by
  simpa using List.mem_takeWhile_imp h

/-- Behind what is heard there is no output. -/
theorem Allowed.not_output_behind (h : Allowed ms) :
    ∀ m ∈ ms.dropWhile fun m => !m.ends, m.isOutput = false := by
  have hsplit : heard ms ++ ms.dropWhile (fun m => !m.ends) = ms := List.takeWhile_append_dropWhile
  cases hrest : ms.dropWhile fun m => !m.ends with
  | nil => exact nofun
  | cons x tail =>
      rw [hrest] at hsplit
      have hends : x.ends = true := by
        have hhead := List.head?_dropWhile_not (fun m : ChannelMsg => !m.ends) ms
        rw [hrest] at hhead
        simpa using hhead
      cases x with
      | eof =>
          -- it is the first one, so the channel is quiet from here on
          have hheard : ∀ m ∈ heard ms, decide (m ≠ .eof) = true := by
            intro m hm
            rw [decide_eq_true_eq]
            rintro rfl
            exact absurd (not_ends_of_mem_heard hm) (by decide)
          have hquiet := h.quiet
          rw [← hsplit, List.dropWhile_append_of_pos hheard,
            List.dropWhile_cons_of_neg (by decide)] at hquiet
          exact hquiet
      | close =>
          -- nothing comes behind the closing of the channel
          have htail : tail = [] := by
            by_contra hne
            refine h.close_once ?_
            rw [← hsplit, List.dropLast_append_cons, List.dropLast_cons_of_ne_nil hne]
            exact List.mem_append_right _ List.mem_cons_self
          rw [htail]
          rintro m hm
          rw [List.mem_singleton.mp hm]
          rfl
      | _ => cases hends

/-- No output is missed. -/
theorem Allowed.flatMap_heard (h : Allowed ms) {f : ChannelMsg → List UInt8}
    (hf : ∀ m, m.isOutput = false → f m = []) : (heard ms).flatMap f = ms.flatMap f := by
  have hsplit : heard ms ++ ms.dropWhile (fun m => !m.ends) = ms := List.takeWhile_append_dropWhile
  have hbehind : (ms.dropWhile fun m => !m.ends).flatMap f = [] :=
    List.flatMap_eq_nil_iff.mpr fun m hm => hf m (h.not_output_behind m hm)
  calc (heard ms).flatMap f
      = (heard ms).flatMap f ++ (ms.dropWhile fun m => !m.ends).flatMap f := by
        rw [hbehind, List.append_nil]
    _ = ms.flatMap f := by rw [← List.flatMap_append, hsplit]

/-- The output as a text, which is what comes of a command that is taken to have
succeeded. -/
def textOf (target : SshTarget) (ms : List ChannelMsg) : Except BridgeError String :=
  match fromUtf8 (stdoutOf ms) with
  | some text => .ok text
  | none => .error (target.fail ("saida nao-utf8: " ++ utf8Error 0 0 (stdoutOf ms)))

/-- What the bridge makes of the end of the command. -/
def resultOf (target : SshTarget) (ms : List ChannelMsg) : List Report → Except BridgeError String
  | .signal name :: _ =>
      .error (.commandSignaled target.host target.port name (fromUtf8Lossy (stdoutOf ms))
        (fromUtf8Lossy (stderrOf ms)))
  | .status code :: _ =>
      if code = 0 then textOf target ms
      else .error (.commandFailed target.host target.port code (fromUtf8Lossy (stdoutOf ms))
        (fromUtf8Lossy (stderrOf ms)))
  | [] => textOf target ms

theorem Allowed.runCommand_eq (h : Allowed ms) (hopen : openSession target trust io = .ok ()) :
    runCommand target trust io ms = resultOf target ms (reports (heard ms)) := by
  have houtput : (heard ms).foldl Received.take .empty =
      ⟨stdoutOf ms, stderrOf ms, ((reports (heard ms)).foldl note (none, none)).1,
        ((reports (heard ms)).foldl note (none, none)).2⟩ := by
    obtain ⟨hout, herr, hend⟩ := foldl_take (heard ms) .empty
    have hstdout : stdoutOf (heard ms) = stdoutOf ms := h.flatMap_heard fun m hm => by
      cases m with
      | data bytes => cases hm
      | _ => rfl
    have hstderr : stderrOf (heard ms) = stderrOf ms := h.flatMap_heard fun m hm => by
      cases m with
      | extendedData bytes ext => cases hm
      | _ => rfl
    rw [hstdout] at hout
    rw [hstderr] at herr
    exact Received.ext hout herr (congrArg Prod.fst hend) (congrArg Prod.snd hend)
  have honce : (reports (heard ms)).length ≤ 1 :=
    Nat.le_trans reports_heard_prefix.length_le h.report_once
  rw [runCommand, hopen, receive_eq_foldl, houtput]
  cases hreports : reports (heard ms) with
  | nil => rfl
  | cons report more =>
      rw [hreports, List.length_cons] at honce
      have hnil : more = [] := List.length_eq_zero_iff.mp (by omega)
      subst hnil
      cases report with
      | status code =>
          by_cases hcode : code = 0
          · subst hcode
            rfl
          · have hfilter : (some code).filter (· ≠ 0) = some code := by
              rw [Option.filter, if_pos (by simpa using hcode)]
            simp only [finish, List.foldl_cons, List.foldl_nil, note, hfilter, resultOf,
              if_neg hcode]
      | signal name => rfl

/-- The command counts as a success only when that was heard, and a failure that the server
tells is what comes of it, with all output. -/
structure SuccessIsReal (target : SshTarget) (ms : List ChannelMsg)
    (result : Except BridgeError String) : Prop where
  success : ∀ text, result = .ok text → .exitStatus 0 ∈ heard ms
  failed : ∀ code, code ≠ 0 → .exitStatus code ∈ ms →
    result = .error (.commandFailed target.host target.port code (fromUtf8Lossy (stdoutOf ms))
      (fromUtf8Lossy (extendedOf ms)))
  signaled : ∀ name, .exitSignal name ∈ ms →
    result = .error (.commandSignaled target.host target.port name (fromUtf8Lossy (stdoutOf ms))
      (fromUtf8Lossy (extendedOf ms)))

/-- The report is heard, and if it is one of a failure no output is lost with it; or there
is none of a failure and the output is no text. -/
def Tells (ms : List ChannelMsg) : Prop :=
  (∃ report ∈ reports (heard ms), report = .status 0 ∨
      fromUtf8Lossy (stderrOf ms) = fromUtf8Lossy (extendedOf ms)) ∨
    (∀ report ∈ reports ms, report = .status 0) ∧ fromUtf8 (stdoutOf ms) = none

theorem status_mem_reports {code : UInt32} :
    .status code ∈ reports ms ↔ .exitStatus code ∈ ms := by
  rw [reports, List.mem_filterMap]
  constructor
  · rintro ⟨m, hm, hreport⟩
    cases m <;> cases hreport
    exact hm
  · exact fun hm => ⟨_, hm, rfl⟩

theorem signal_mem_reports {name : String} :
    .signal name ∈ reports ms ↔ .exitSignal name ∈ ms := by
  rw [reports, List.mem_filterMap]
  constructor
  · rintro ⟨m, hm, hreport⟩
    cases m <;> cases hreport
    exact hm
  · exact fun hm => ⟨_, hm, rfl⟩

/-- The transcript has at most one report, which is heard or not. -/
theorem Allowed.reports_cases (h : Allowed ms) :
    reports ms = [] ∨ ∃ report, reports ms = [report] ∧
      (reports (heard ms) = [report] ∨ reports (heard ms) = []) := by
  obtain ⟨behind, hsplit⟩ : reports (heard ms) <+: reports ms := reports_heard_prefix
  have honce := h.report_once
  cases hall : reports ms with
  | nil => exact .inl rfl
  | cons report more =>
      rw [hall, List.length_cons] at honce
      have hmore : more = [] := List.length_eq_zero_iff.mp (by omega)
      subst hmore
      refine .inr ⟨report, rfl, ?_⟩
      rw [hall] at hsplit
      cases hheard : reports (heard ms) with
      | nil => exact .inr rfl
      | cons first others =>
          rw [hheard, List.cons_append] at hsplit
          injection hsplit with hfirst hothers
          obtain ⟨rfl, -⟩ := List.append_eq_nil_iff.mp hothers
          exact .inl (by rw [hfirst])

theorem textOf_ne_failed {e : BridgeError} (he : ∀ detail, e ≠ target.fail detail) :
    textOf target ms ≠ .error e := by
  rw [textOf]
  split
  · exact nofun
  · rintro h
    exact he _ (Except.error.inj h).symm

theorem fromUtf8_of_textOf {text : String} (h : textOf target ms = .ok text) :
    fromUtf8 (stdoutOf ms) ≠ none := by
  intro hnone
  rw [textOf, hnone] at h
  cases h

/-- A report that is not heard, and one that is not there, leave the output alone. -/
theorem successIsReal_textOf_iff (hunheard : reports (heard ms) = []) :
    SuccessIsReal target ms (textOf target ms) ↔
      (∀ report ∈ reports ms, report = .status 0) ∧ fromUtf8 (stdoutOf ms) = none := by
  constructor
  · intro h
    refine ⟨fun report hreport => ?_, ?_⟩
    · cases report with
      | status code =>
          by_contra hne
          have hcode : code ≠ 0 := fun hzero => hne (hzero ▸ rfl)
          exact absurd (h.failed code hcode (status_mem_reports.mp hreport))
            (textOf_ne_failed fun _ => nofun)
      | signal name =>
          exact absurd (h.signaled name (signal_mem_reports.mp hreport))
            (textOf_ne_failed fun _ => nofun)
    · by_contra hsome
      obtain ⟨text, htext⟩ := Option.ne_none_iff_exists'.mp hsome
      have hok : textOf target ms = .ok text := by rw [textOf, htext]
      have hmem := status_mem_reports.mpr (h.success text hok)
      rw [hunheard] at hmem
      cases hmem
  · rintro ⟨hall, hnone⟩
    refine ⟨fun text htext => absurd hnone (fromUtf8_of_textOf htext), fun code hcode hmem => ?_,
      fun name hmem => ?_⟩
    · have hzero := hall _ (status_mem_reports.mpr hmem)
      exact absurd (Report.status.inj hzero) hcode
    · cases hall _ (signal_mem_reports.mpr hmem)

/-- Of a report that is heard, only the output that is told with a failure may be wrong. -/
theorem successIsReal_report_iff {report : Report} (hall : reports ms = [report])
    (hheard : reports (heard ms) = [report]) :
    SuccessIsReal target ms (resultOf target ms [report]) ↔
      report = .status 0 ∨ fromUtf8Lossy (stderrOf ms) = fromUtf8Lossy (extendedOf ms) := by
  have honly : ∀ other ∈ reports ms, other = report := by
    rw [hall]
    exact fun other => List.mem_singleton.mp
  have hthere : report ∈ reports ms := hall ▸ List.mem_cons_self
  cases report with
  | status code =>
      have hnoSignal : ∀ name, .exitSignal name ∉ ms := by
        intro name hmem
        cases honly _ (signal_mem_reports.mpr hmem)
      by_cases hcode : code = 0
      · subst hcode
        refine iff_of_true ⟨fun text _ => ?_, fun code hcode hmem => ?_, fun name hmem => ?_⟩
          (.inl rfl)
        · exact status_mem_reports.mp (hheard ▸ List.mem_cons_self)
        · exact absurd (Report.status.inj (honly _ (status_mem_reports.mpr hmem))) hcode
        · exact absurd hmem (hnoSignal name)
      · rw [resultOf, if_neg hcode]
        constructor
        · intro h
          have htold := h.failed code hcode (status_mem_reports.mp hthere)
          injection htold with herror
          injection herror with _ _ _ _ hsame
          exact .inr hsame
        · rintro (hzero | hsame)
          · exact absurd (Report.status.inj hzero) hcode
          · refine ⟨nofun, fun other _ hmem => ?_, fun name hmem => absurd hmem (hnoSignal name)⟩
            rw [Report.status.inj (honly _ (status_mem_reports.mpr hmem)), hsame]
  | signal name =>
      rw [resultOf]
      constructor
      · intro h
        have htold := h.signaled name (signal_mem_reports.mp hthere)
        injection htold with herror
        injection herror with _ _ _ _ hsame
        exact .inr hsame
      · rintro (hstatus | hsame)
        · cases hstatus
        · refine ⟨nofun, fun code _ hmem => ?_, fun other hmem => ?_⟩
          · cases honly _ (status_mem_reports.mpr hmem)
          · rw [Report.signal.inj (honly _ (signal_mem_reports.mpr hmem)), hsame]

/-- Exactly when the end of a command is heard does the bridge tell it as it is. -/
theorem success_is_real_iff (hopen : openSession target trust io = .ok ()) (hms : Allowed ms) :
    SuccessIsReal target ms (runCommand target trust io ms) ↔ Tells ms := by
  rw [hms.runCommand_eq hopen, Tells]
  obtain hnone | ⟨report, hall, hheard | hunheard⟩ := hms.reports_cases
  · have hprefix : reports (heard ms) <+: [] := hnone ▸ reports_heard_prefix
    have hunheard := List.prefix_nil.mp hprefix
    rw [hunheard, resultOf, successIsReal_textOf_iff hunheard]
    simp
  · rw [hheard, successIsReal_report_iff hall hheard, hall]
    constructor
    · exact fun h => .inl ⟨report, List.mem_cons_self, h⟩
    · rintro (⟨other, hother, h⟩ | ⟨h, -⟩)
      · rwa [List.mem_singleton.mp hother] at h
      · exact .inl (h report List.mem_cons_self)
  · rw [hunheard, resultOf, successIsReal_textOf_iff hunheard]
    simp

/-! A host whose key is approved. -/

def nodeTarget : SshTarget := ⟨"10.0.0.7", 22, "studio"⟩

def nodeKey : KeyIdentity := ⟨"ssh-ed25519", "SHA256:9o"⟩

def nodeTrust : List Approval := [⟨"10.0.0.7", 22, nodeKey⟩]

def nodeSession : SessionIo := ⟨.shown nodeKey none, .ok true, none, none⟩

/-- A command that fails, with its status before the end of the output. -/
def failing : List ChannelMsg :=
  [.other, .data [0x61], .extendedData [0x62] 1, .exitStatus 3, .eof, .close]

/-- The same with the status behind the end of the output. -/
def failingLate : List ChannelMsg :=
  [.other, .data [0x61], .extendedData [0x62] 1, .eof, .exitStatus 3, .close]

theorem failing_is_told :
    SuccessIsReal nodeTarget failing (runCommand nodeTarget nodeTrust nodeSession failing) :=
  (success_is_real_iff (by decide) ⟨by decide, by decide, by decide, by decide⟩).mpr
    (.inl ⟨.status 3, by decide, .inr rfl⟩)

theorem late_failure_is_success :
    Allowed failingLate ∧
      runCommand nodeTarget nodeTrust nodeSession failingLate = .ok "a" ∧
      ¬ SuccessIsReal nodeTarget failingLate
          (runCommand nodeTarget nodeTrust nodeSession failingLate) := by
  have hrun : runCommand nodeTarget nodeTrust nodeSession failingLate = .ok "a" := by decide
  refine ⟨⟨by decide, by decide, by decide, by decide⟩, hrun, fun h => ?_⟩
  have htold := h.failed 3 (by decide) (by decide)
  rw [hrun] at htold
  cases htold

end DdsOrchestrator.StudioSsh
