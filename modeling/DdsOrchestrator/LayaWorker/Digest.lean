import DdsOrchestrator.Lib.PrefixCode
import DdsOrchestrator.Lib.Sha256

/-!
The bytes that a payload hash is taken over. The fields of a struct follow one another in the
order of the contract, with nothing in between; what has no fixed width begins with its length.
So the bytes determine the value, and where it ends.
-/

namespace DdsOrchestrator.LayaWorker

open PrefixCode

/-! ### Typed values -/

inductive IntType where
  | u16
  | u32
  | u64
  | i32
  deriving DecidableEq

namespace IntType

/-- In bytes. -/
def width : IntType → ℕ
  | u16 => 2
  | u32 => 4
  | u64 => 8
  | i32 => 4

def least : IntType → Int
  | i32 => -2147483648
  | _ => 0

def Contains (t : IntType) (v : Int) : Prop := t.least ≤ v ∧ v < t.least + 256 ^ t.width

instance (t : IntType) (v : Int) : Decidable (t.Contains v) := inferInstanceAs (Decidable (_ ∧ _))

end IntType

/-- A double by its bits: the sign, eleven of the exponent, and the fraction. -/
structure Double where
  bits : UInt64
  deriving DecidableEq

namespace Double

/-- NaN and the infinities have the largest exponent. -/
def isFinite (x : Double) : Bool := x.bits.toNat / 2 ^ 52 % 2 ^ 11 != 2 ^ 11 - 1

def isZero (x : Double) : Bool := x.bits.toNat % 2 ^ 63 == 0

/-- What is written for the double. Both zeros are the positive one. -/
def normalized (x : Double) : UInt64 := if x.isZero then 0 else x.bits

/-- Equal up to the sign of zero. -/
def Equals (x y : Double) : Prop := x = y ∨ (x.isZero ∧ y.isZero)

end Double

/-- `{"t": …, "v": …}`. The entries of a struct are those of a dict; what a sequence says about
the type of its items is left out, since no one reads it. -/
inductive TypedValue where
  | string (v : String)
  | int (t : IntType) (v : Int)
  | bool (v : Bool)
  | f64 (v : Double)
  | enum (enum : String) (v : String)
  | seq (v : List TypedValue)
  | struct (struct : String) (v : List (String × TypedValue))

def enumLiterals : List (String × List String) :=
  [("IntentCommand", ["IC_SUBMIT", "IC_CANCEL"]),
   ("QosIntent", ["QI_BALANCED", "QI_CRITICAL", "QI_STREAM_LIKE", "QI_LOW_COST", "QI_FAILOVER"]),
   ("DecisionStatus", ["DS_OK", "DS_ERROR"]),
   ("ReasonCode",
    ["RC_NONE", "RC_INVALID_INPUT", "RC_MODEL_UNAVAILABLE", "RC_TIMEOUT", "RC_SCHEMA_MISMATCH",
      "RC_POLICY_DENIED", "RC_LOW_CONFIDENCE", "RC_EXPIRED", "RC_CAPABILITY_UNAVAILABLE",
      "RC_OVERLOADED", "RC_CONFLICT", "RC_INVALID_PLAN", "RC_OUTPUT_INVALID", "RC_IN_DOUBT",
      "RC_CANCELLED"]),
   ("NodeKind", ["NK_INFERENCE", "NK_TOOL"]),
   ("WorkflowStatus",
    ["WS_ACCEPTED", "WS_WAITING_DECISION", "WS_WAITING_PLAN", "WS_RUNNING", "WS_DONE",
      "WS_FAILED", "WS_CANCELLED", "WS_IN_DOUBT"]),
   ("NodeStatus",
    ["NS_BLOCKED", "NS_READY", "NS_PUBLISHED", "NS_ASSIGNED", "NS_RUNNING", "NS_DONE",
      "NS_FAILED", "NS_CANCELLED", "NS_IN_DOUBT"])]

def structFields : List (String × List String) :=
  [("ProfileProbability", ["profile", "probability"]),
   ("CapabilityProbability", ["capability_id", "probability", "answer_confidence"]),
   ("ToolVersion", ["tool_id", "version"]),
   ("InputRef", ["producer_node_id", "output_name"]),
   ("OutputRef", ["name", "context_ref", "content_hash", "byte_count", "source_task_id"]),
   ("PlanNode",
    ["node_id", "kind", "required_capabilities", "model_id", "target_agent_id",
      "prompt_template", "dependencies", "inputs", "output_names", "max_attempts", "deadline_ns",
      "max_tokens", "max_output_bytes", "security_context_ref", "priority", "side_effect_key"]),
   ("NodeState",
    ["node_id", "status", "attempt_id", "task_id", "assigned_agent_id", "ready",
      "started_at_ns", "completed_at_ns", "outputs", "reason_code"]),
   ("WorkflowIntent",
    ["request_id", "workflow_id", "client_id", "schema_version", "intent_revision", "command",
      "expected_plan_revision", "prompt", "created_at_ns", "deadline_ns",
      "security_context_ref", "policy_revision", "questions_revision",
      "capability_catalog_revision", "checkpoint_revision", "max_tokens",
      "max_cost_microunits", "budget_unit", "fallback_template_id", "payload_hash"]),
   ("RoutingDecision",
    ["request_id", "decision_id", "workflow_id", "schema_version", "intent_revision",
      "producer_id", "model_id", "checkpoint_revision", "questions_revision",
      "policy_revision", "capability_catalog_revision", "qos_profile", "qos_probabilities",
      "capability_probabilities", "requires_planning_probability", "priority_score",
      "priority_probabilities", "confidence", "answer_confidence", "calibration_revision",
      "created_at_ns", "valid_until_ns", "decision_status", "reason_code", "evidence_digest",
      "payload_hash"]),
   ("AgentCapabilities",
    ["agent_id", "schema_version", "announcement_revision", "capability_catalog_revision",
      "capabilities", "model_ids", "tool_versions", "adaptive_protocol_version",
      "security_context_ref", "created_at_ns", "valid_until_ns"]),
   ("WorkflowPlan",
    ["workflow_id", "plan_revision", "schema_version", "request_id", "intent_revision",
      "effective_decision_id", "policy_revision", "capability_catalog_revision", "planner_id",
      "planner_revision", "created_at_ns", "deadline_ns", "qos_profile", "nodes", "plan_hash"]),
   ("WorkflowState",
    ["workflow_id", "plan_revision", "schema_version", "state_revision", "request_id",
      "effective_decision_id", "plan_hash", "status", "reason_code", "nodes", "created_at_ns",
      "updated_at_ns", "expires_at_ns", "cancelled_by_request_id", "effective_qos_config_hash",
      "fallback_template_id"])]

/-! ### Encoding -/

/-- `struct.pack`, which raises on a number that does not fit. A negative one is written as its
two's complement. -/
def pack (t : IntType) (v : Int) : Option (List UInt8) :=
  if t.Contains v then some (bigEndian t.width (v % 256 ^ t.width).toNat) else none

def packF64 (x : Double) : Option (List UInt8) :=
  if x.isFinite then some (bigEndian 8 x.normalized.toNat) else none

def utf8 (v : String) : List UInt8 := v.toUTF8.data.toList

def ordinal (enum literal : String) : Option ℕ :=
  (enumLiterals.lookup enum).bind (·.idxOf? literal)

mutual

/-- The bytes of a value, if it has any. -/
def encodeTyped : TypedValue → Option (List UInt8)
  | .string v => cat (pack .u32 (utf8 v).length) (some (utf8 v))
  | .int t v => pack t v
  | .bool v => some [if v then 1 else 0]
  | .f64 v => packF64 v
  | .enum enum v => (ordinal enum v).bind fun i => pack .u32 i
  | .seq v => cat (pack .u32 v.length) (concat (encodeItems v))
  | .struct struct v =>
    (structFields.lookup struct).bind fun fields =>
      concat (fields.map fun fld => ((encodeEntries v).lookup fld).join)

def encodeItems : List TypedValue → List (Option (List UInt8))
  | [] => []
  | item :: items => encodeTyped item :: encodeItems items

/-- Of the entries only those that the struct has a field for are looked up. -/
def encodeEntries : List (String × TypedValue) → List (String × Option (List UInt8))
  | [] => []
  | (fld, value) :: entries => (fld, encodeTyped value) :: encodeEntries entries

end

/-- `encode_typed(v[fld])`. -/
def encodeField (v : List (String × TypedValue)) (fld : String) : Option (List UInt8) :=
  (v.lookup fld).bind encodeTyped

theorem encodeItems_eq (v : List TypedValue) : encodeItems v = v.map encodeTyped := by
  induction v with
  | nil => rfl
  | cons item items ih => rw [encodeItems, ih, List.map_cons]

theorem lookup_encodeEntries (v : List (String × TypedValue)) (fld : String) :
    ((encodeEntries v).lookup fld).join = encodeField v fld := by
  induction v with
  | nil => rfl
  | cons entry entries ih =>
      obtain ⟨key, value⟩ := entry
      rw [encodeField] at ih ⊢
      rw [encodeEntries, List.lookup_cons, List.lookup_cons]
      cases fld == key with
      | true => rfl
      | false => exact ih

theorem encodeTyped_seq (v : List TypedValue) :
    encodeTyped (.seq v) = cat (pack .u32 v.length) (concat (v.map encodeTyped)) := by
  rw [encodeTyped, encodeItems_eq]

theorem encodeTyped_struct (struct : String) (v : List (String × TypedValue)) :
    encodeTyped (.struct struct v) =
      (structFields.lookup struct).bind fun fields => concat (fields.map (encodeField v)) := by
  simp only [encodeTyped, lookup_encodeEntries]

/-- The bytes below the hash: those of the value, without the field that is skipped. -/
def preimage (skipField : Option String) : TypedValue → Option (List UInt8)
  | .struct struct v =>
    (structFields.lookup struct).bind fun fields =>
      concat ((fields.filter fun fld => skipField != some fld).map (encodeField v))
  | value => encodeTyped value

def hexDigest (bytes : List UInt8) : String :=
  let d := Sha256.digest (bytes.map UInt8.toNat)
  String.ofList ([d.a, d.b, d.c, d.d, d.e, d.f, d.g, d.h].flatMap Sha256.hexDigits)

def digestTyped (value : TypedValue) (skipField : Option String) : Option String :=
  (preimage skipField value).map hexDigest

end DdsOrchestrator.LayaWorker
