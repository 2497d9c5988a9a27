import DdsOrchestrator.Lib.Json
import DdsOrchestrator.Lib.Sha256
import DdsOrchestrator.Lib.Utf8

/-!
What the deterministic responder answers. It reads the answer off the messages of a request
alone: the stage off a marker in the system messages, and a hash off all of them. The text goes
out in two halves, cut at a character.
-/

namespace DdsOrchestrator.DetResponder

inductive Invalid where
  | emptyMessages
  | missingText
  | unknownStage
  | emptyModel
  deriving DecidableEq

def Invalid.message : Invalid → String
  | emptyMessages => "messages_json deve ser array não vazio"
  | missingText => "mensagem sem role/content textual"
  | unknownStage => "etapa desconhecida: sem marcador PROMPT_VERSION"
  | emptyModel => "model_name vazio"

/-- A marker, its stage and its family. -/
def stageTable : List (String × String × String) :=
  [("seq_analyst_v1", "A", "seq"),
    ("seq_reviewer_v1", "B", "seq"),
    ("seq_consolidator_v1", "C", "seq"),
    ("fork_correctness_v1", "A", "fork"),
    ("fork_security_v1", "B", "fork"),
    ("fork_consolidator_v1", "C", "fork")]

/-- A text, or the texts of a list of parts. -/
def msgContent (v : Json) : Option String :=
  match v.get? "content" with
  | some (.str s) => some s
  | some (.arr parts) =>
    some (" ".intercalate (parts.toList.filterMap fun p => (p.get? "text").bind Json.asStr))
  | _ => none

def roleOf (m : Json) : Option String := (m.get? "role").bind Json.asStr

def normalize (messages : List Json) : Option String :=
  (messages.mapM fun m => (msgContent m).map fun text => (roleOf m).getD "" ++ ":" ++ text).map
    ("\n".intercalate ·)

def contentHash (normalized : String) : String :=
  String.ofList ((sha256Hex normalized).toList.take 16)

structure Parsed where
  messages : List Json
  normalized : String
  stage : String
  family : String

def systemText (messages : List Json) : String :=
  "\n".intercalate ((messages.filter fun m => roleOf m = some "system").filterMap msgContent)

/-- The first row whose marker is in the text. -/
def stageRow (text : String) : Option (String × String × String) :=
  stageTable.find? fun row => decide (("PROMPT_VERSION: " ++ row.1).toList <:+: text.toList)

/-- Anything but an array counts as no messages. `fromStr` reads JSON. -/
def parse (fromStr : String → Option Json) (messagesJson : String) : Except Invalid Parsed :=
  let messages := match fromStr messagesJson with
    | some (.arr elems) => elems.toList
    | _ => []
  if messages.isEmpty then .error .emptyMessages
  else
    match normalize messages with
    | none => .error .missingText
    | some normalized =>
      match stageRow (systemText messages) with
      | none => .error .unknownStage
      | some (_, stage, family) => .ok { messages, normalized, stage, family }

def fixtureText (stage hash : String) (n : ℕ) : String :=
  "[fixture stage=" ++ stage ++ " h=" ++ hash ++ " n=" ++ toString n ++ "]"

def Parsed.content (p : Parsed) : String :=
  fixtureText p.stage (contentHash p.normalized) p.messages.length

/-! ### The two halves -/

/-- The first position from the middle on at which a character begins or the text ends. -/
def splitMidpoint (s : String) : ℕ :=
  let mid := s.utf8ByteSize / 2
  ((List.range' mid (s.utf8ByteSize + 1 - mid)).find? fun i =>
    decide (String.Pos.Raw.IsValid s ⟨i⟩)).getD s.utf8ByteSize

/-- The text up to the cut and the text from there on, as long as both can be sliced. -/
def firstHalf (s : String) : String := (Utf8.slice? s 0 (splitMidpoint s)).getD ""

def secondHalf (s : String) : String :=
  (Utf8.slice? s (splitMidpoint s) s.utf8ByteSize).getD ""

theorem splitMidpoint_isValid (s : String) : String.Pos.Raw.IsValid s ⟨splitMidpoint s⟩ := by
  have hend : String.Pos.Raw.IsValid s ⟨s.utf8ByteSize⟩ := by
    have hwhole := Utf8.isValid_append s ""
    rwa [String.append_empty, Utf8.length_asBytes] at hwhole
  dsimp only [splitMidpoint]
  cases hfind : (List.range' (s.utf8ByteSize / 2) (s.utf8ByteSize + 1 - s.utf8ByteSize / 2)).find?
      fun i => decide (String.Pos.Raw.IsValid s ⟨i⟩) with
  | none => exact hend
  | some i =>
      have hvalid := List.find?_some hfind
      exact of_decide_eq_true hvalid

/-- Neither slice panics, and together they are the text. -/
theorem slice?_halves (s : String) :
    Utf8.slice? s 0 (splitMidpoint s) = some (firstHalf s) ∧
      Utf8.slice? s (splitMidpoint s) s.utf8ByteSize = some (secondHalf s) ∧
      firstHalf s ++ secondHalf s = s := by
  obtain ⟨t, u, hs, ht⟩ := String.Pos.Raw.isValid_iff_exists_append.mp (splitMidpoint_isValid s)
  have hmid : splitMidpoint s = (Utf8.asBytes t).length := by
    rw [Utf8.length_asBytes]
    exact congrArg String.Pos.Raw.byteIdx ht
  have hfirst : Utf8.slice? s 0 (splitMidpoint s) = some t := by
    have hslice := Utf8.slice?_append "" t u
    rw [String.empty_append, ← hs] at hslice
    rw [hmid]
    simpa using hslice
  have hsecond : Utf8.slice? s (splitMidpoint s) s.utf8ByteSize = some u := by
    have hslice := Utf8.slice?_append t u ""
    rw [String.append_empty, ← hs] at hslice
    have hsize : s.utf8ByteSize = (Utf8.asBytes t).length + (Utf8.asBytes u).length := by
      rw [hs, ← Utf8.length_asBytes, Utf8.asBytes_append, List.length_append]
    rw [hmid, hsize]
    exact hslice
  refine ⟨?_, ?_, ?_⟩
  · rw [firstHalf, hfirst, Option.getD_some]
  · rw [secondHalf, hsecond, Option.getD_some]
  · rw [firstHalf, secondHalf, hfirst, hsecond, Option.getD_some, Option.getD_some]
    exact hs.symm

end DdsOrchestrator.DetResponder
