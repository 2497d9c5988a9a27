import DdsOrchestrator.LayaWorker.Unambiguous

/-!
The encoder of the contract's own test. It reads the order of fields and literals from the
fixture of the schema, and casts where the worker raises.
-/

namespace DdsOrchestrator.LayaWorker

open PrefixCode

/-! ### The fixture -/

def fixtureEnums : List (String × List String) :=
  [("IntentCommand", ["IC_SUBMIT", "IC_CANCEL"]),
   ("QosIntent", ["QI_BALANCED", "QI_CRITICAL", "QI_STREAM_LIKE", "QI_LOW_COST", "QI_FAILOVER"]),
   ("DecisionStatus", ["DS_OK", "DS_ERROR"]),
   ("ReasonCode",
    ["RC_NONE", "RC_INVALID_INPUT", "RC_MODEL_UNAVAILABLE", "RC_TIMEOUT", "RC_SCHEMA_MISMATCH",
      "RC_POLICY_DENIED", "RC_LOW_CONFIDENCE", "RC_EXPIRED", "RC_CAPABILITY_UNAVAILABLE",
      "RC_OVERLOADED", "RC_CONFLICT", "RC_INVALID_PLAN", "RC_OUTPUT_INVALID", "RC_IN_DOUBT",
      "RC_CANCELLED"]),
   ("NodeKind", ["NK_INFERENCE", "NK_TOOL"]),
   ("WorkflowStatus",
    ["WS_ACCEPTED", "WS_WAITING_DECISION", "WS_WAITING_PLAN", "WS_RUNNING", "WS_DONE",
      "WS_FAILED", "WS_CANCELLED", "WS_IN_DOUBT"]),
   ("NodeStatus",
    ["NS_BLOCKED", "NS_READY", "NS_PUBLISHED", "NS_ASSIGNED", "NS_RUNNING", "NS_DONE",
      "NS_FAILED", "NS_CANCELLED", "NS_IN_DOUBT"])]

/-- The structs with the types of their fields. An enum goes on the wire as a number; of which
enum that is the ordinal stands in the IDL. -/
def fixtureStructs : List (String × List (String × Ty)) :=
  [("ProfileProbability", [("profile", .enum "QosIntent"), ("probability", .f64)]),
   ("CapabilityProbability",
    [("capability_id", .string), ("probability", .f64), ("answer_confidence", .f64)]),
   ("ToolVersion", [("tool_id", .string), ("version", .string)]),
   ("InputRef", [("producer_node_id", .string), ("output_name", .string)]),
   ("OutputRef",
    [("name", .string), ("context_ref", .string), ("content_hash", .string),
      ("byte_count", .int .u32), ("source_task_id", .string)]),
   ("PlanNode",
    [("node_id", .string), ("kind", .enum "NodeKind"), ("required_capabilities", .seq .string),
      ("model_id", .string), ("target_agent_id", .string), ("prompt_template", .string),
      ("dependencies", .seq .string), ("inputs", .seq (.struct "InputRef")),
      ("output_names", .seq .string), ("max_attempts", .int .u16), ("deadline_ns", .int .u64),
      ("max_tokens", .int .u32), ("max_output_bytes", .int .u32),
      ("security_context_ref", .string), ("priority", .int .i32), ("side_effect_key", .string)]),
   ("NodeState",
    [("node_id", .string), ("status", .enum "NodeStatus"), ("attempt_id", .int .u32),
      ("task_id", .string), ("assigned_agent_id", .string), ("ready", .bool),
      ("started_at_ns", .int .u64), ("completed_at_ns", .int .u64),
      ("outputs", .seq (.struct "OutputRef")), ("reason_code", .enum "ReasonCode")]),
   ("WorkflowIntent",
    [("request_id", .string), ("workflow_id", .string), ("client_id", .string),
      ("schema_version", .int .u16), ("intent_revision", .int .u32),
      ("command", .enum "IntentCommand"), ("expected_plan_revision", .int .u32),
      ("prompt", .string), ("created_at_ns", .int .u64), ("deadline_ns", .int .u64),
      ("security_context_ref", .string), ("policy_revision", .int .u32),
      ("questions_revision", .int .u32), ("capability_catalog_revision", .int .u32),
      ("checkpoint_revision", .string), ("max_tokens", .int .u32),
      ("max_cost_microunits", .int .u64), ("budget_unit", .string),
      ("fallback_template_id", .string), ("payload_hash", .string)]),
   ("RoutingDecision",
    [("request_id", .string), ("decision_id", .string), ("workflow_id", .string),
      ("schema_version", .int .u16), ("intent_revision", .int .u32), ("producer_id", .string),
      ("model_id", .string), ("checkpoint_revision", .string), ("questions_revision", .int .u32),
      ("policy_revision", .int .u32), ("capability_catalog_revision", .int .u32),
      ("qos_profile", .enum "QosIntent"),
      ("qos_probabilities", .seq (.struct "ProfileProbability")),
      ("capability_probabilities", .seq (.struct "CapabilityProbability")),
      ("requires_planning_probability", .f64), ("priority_score", .f64),
      ("priority_probabilities", .seq .f64), ("confidence", .f64), ("answer_confidence", .f64),
      ("calibration_revision", .string), ("created_at_ns", .int .u64),
      ("valid_until_ns", .int .u64), ("decision_status", .enum "DecisionStatus"),
      ("reason_code", .enum "ReasonCode"), ("evidence_digest", .string),
      ("payload_hash", .string)]),
   ("AgentCapabilities",
    [("agent_id", .string), ("schema_version", .int .u16),
      ("announcement_revision", .int .u32), ("capability_catalog_revision", .int .u32),
      ("capabilities", .seq .string), ("model_ids", .seq .string),
      ("tool_versions", .seq (.struct "ToolVersion")), ("adaptive_protocol_version", .int .u16),
      ("security_context_ref", .string), ("created_at_ns", .int .u64),
      ("valid_until_ns", .int .u64)]),
   ("WorkflowPlan",
    [("workflow_id", .string), ("plan_revision", .int .u32), ("schema_version", .int .u16),
      ("request_id", .string), ("intent_revision", .int .u32),
      ("effective_decision_id", .string), ("policy_revision", .int .u32),
      ("capability_catalog_revision", .int .u32), ("planner_id", .string),
      ("planner_revision", .string), ("created_at_ns", .int .u64), ("deadline_ns", .int .u64),
      ("qos_profile", .enum "QosIntent"), ("nodes", .seq (.struct "PlanNode")),
      ("plan_hash", .string)]),
   ("WorkflowState",
    [("workflow_id", .string), ("plan_revision", .int .u32), ("schema_version", .int .u16),
      ("state_revision", .int .u32), ("request_id", .string),
      ("effective_decision_id", .string), ("plan_hash", .string),
      ("status", .enum "WorkflowStatus"), ("reason_code", .enum "ReasonCode"),
      ("nodes", .seq (.struct "NodeState")), ("created_at_ns", .int .u64),
      ("updated_at_ns", .int .u64), ("expires_at_ns", .int .u64),
      ("cancelled_by_request_id", .string), ("effective_qos_config_hash", .string),
      ("fallback_template_id", .string)])]

def fixtureFields (struct : String) : Option (List String) :=
  (fixtureStructs.lookup struct).map fun fields => fields.map (·.1)

/-- The type of a field of the contract. Of what is none it does not matter. -/
def contractType (struct fld : String) : Ty :=
  ((fixtureStructs.lookup struct).bind (·.lookup fld)).getD .string

/-! ### The encoder -/

/-- `as_i64` for `i32` and `as_u64` for the others. -/
def IntType.Parsed : IntType → Int → Prop
  | i32, v => -2 ^ 63 ≤ v ∧ v < 2 ^ 63
  | _, v => 0 ≤ v ∧ v < 2 ^ 64

instance : (t : IntType) → (v : Int) → Decidable (t.Parsed v)
  | .i32, _ => inferInstanceAs (Decidable (_ ∧ _))
  | .u16, _ => inferInstanceAs (Decidable (_ ∧ _))
  | .u32, _ => inferInstanceAs (Decidable (_ ∧ _))
  | .u64, _ => inferInstanceAs (Decidable (_ ∧ _))

/-- The cast keeps the last bytes. -/
def castBytes (t : IntType) (v : Int) : Option (List UInt8) :=
  if t.Parsed v then some (bigEndian t.width (v % 256 ^ t.width).toNat) else none

/-- `as u32` of a length or of an index. -/
def lenBytes (n : ℕ) : Option (List UInt8) := some (bigEndian 4 (n % 2 ^ 32))

/-- `assert!(f.is_finite())`, and zero has no sign. -/
def floatBytes (f : Double) : Option (List UInt8) :=
  if f.isFinite then
    let f : Double := if f.isZero then ⟨0⟩ else f
    some (bigEndian 8 f.bits.toNat)
  else none

def position (enum literal : String) : Option ℕ :=
  (fixtureEnums.lookup enum).bind (·.findIdx? (· == literal))

mutual

def encTyped : TypedValue → Option (List UInt8)
  | .string v => cat (lenBytes (utf8 v).length) (some (utf8 v))
  | .int t v => castBytes t v
  | .bool v => some [v.toUInt8]
  | .f64 v => floatBytes v
  | .enum enum v => (position enum v).bind lenBytes
  | .seq v => cat (lenBytes v.length) (concat (encItems v))
  | .struct struct v =>
    (fixtureFields struct).bind fun fields =>
      concat (fields.map fun fld => ((encEntries v).lookup fld).join)

def encItems : List TypedValue → List (Option (List UInt8))
  | [] => []
  | item :: items => encTyped item :: encItems items

def encEntries : List (String × TypedValue) → List (String × Option (List UInt8))
  | [] => []
  | (fld, value) :: entries => (fld, encTyped value) :: encEntries entries

end

theorem encItems_eq (v : List TypedValue) : encItems v = v.map encTyped := by
  induction v with
  | nil => rfl
  | cons item items ih => rw [encItems, ih, List.map_cons]

theorem lookup_encEntries (v : List (String × TypedValue)) (fld : String) :
    ((encEntries v).lookup fld).join = (v.lookup fld).bind encTyped := by
  induction v with
  | nil => rfl
  | cons entry entries ih =>
      obtain ⟨key, value⟩ := entry
      rw [encEntries, List.lookup_cons, List.lookup_cons]
      cases fld == key with
      | true => rfl
      | false => exact ih

/-! ### The same bytes -/

theorem fixtureEnums_eq : fixtureEnums = enumLiterals := rfl

theorem fixtureFields_eq (struct : String) : fixtureFields struct = structFields.lookup struct := by
  have hnames : structFields = fixtureStructs.map fun e => (e.1, e.2.map (·.1)) := rfl
  rw [hnames, fixtureFields]
  induction fixtureStructs with
  | nil => rfl
  | cons e es ih =>
      rw [List.map_cons, List.lookup_cons, List.lookup_cons]
      cases struct == e.1 with
      | true => rfl
      | false => exact ih

theorem position_eq (enum literal : String) :
    position enum literal = ordinal enum literal := by
  rw [position, fixtureEnums_eq]
  rfl

/-- What fits into the width is not changed by the cast. -/
theorem castBytes_of_pack {t : IntType} {v : Int} {p : List UInt8} (h : pack t v = some p) :
    castBytes t v = some p := by
  unfold pack at h
  split at h
  · next hv =>
      have hparsed : t.Parsed v := by
        cases t <;>
          simp only [IntType.Contains, IntType.least, IntType.width, IntType.Parsed] at hv ⊢ <;>
          omega
      rw [castBytes, if_pos hparsed, h]
  · cases h

theorem lenBytes_of_pack {n : ℕ} {p : List UInt8} (h : pack .u32 n = some p) :
    lenBytes n = some p := by
  unfold pack at h
  split at h
  · next hn =>
      have hlt : (n : Int) < 256 ^ 4 := by
        have hbound : (n : Int) < 0 + 256 ^ 4 := hn.2
        rwa [zero_add] at hbound
      have hint : ((n : Int) % 256 ^ 4).toNat = n := by omega
      have hnat : n % 2 ^ 32 = n := by omega
      rw [lenBytes, hnat, ← h]
      exact congrArg (fun m => some (bigEndian 4 m)) hint.symm
  · cases h

theorem floatBytes_eq (x : Double) : floatBytes x = packF64 x := by
  unfold floatBytes packF64 Double.normalized
  cases x.isZero <;> rfl

variable {fieldType : String → String → Ty} {v : TypedValue} {ty : Ty} {p : List UInt8}

theorem HasType.encTyped_eq_some (htype : HasType fieldType v ty)
    (hp : encodeTyped v = some p) : encTyped v = some p := by
  induction htype generalizing p with
  | string v =>
      rw [encodeTyped] at hp
      obtain ⟨len, text, hlen, htext, happend⟩ := cat_eq_some.mp hp
      rw [encTyped]
      exact cat_eq_some.mpr ⟨len, text, lenBytes_of_pack hlen, htext, happend⟩
  | int t v => exact castBytes_of_pack hp
  | bool v =>
      rw [← hp]
      cases v <;> rfl
  | f64 v =>
      rw [encodeTyped] at hp
      rw [encTyped, floatBytes_eq, hp]
  | enum enum v =>
      rw [encodeTyped] at hp
      obtain ⟨i, hi, hp⟩ := Option.bind_eq_some_iff.mp hp
      rw [encTyped, position_eq, hi, Option.bind_some]
      exact lenBytes_of_pack hp
  | @seq v elem items ih =>
      rw [encodeTyped_seq] at hp
      obtain ⟨len, rest, hlen, hrest, happend⟩ := cat_eq_some.mp hp
      rw [encTyped, encItems_eq]
      refine cat_eq_some.mpr ⟨len, rest, lenBytes_of_pack hlen, ?_, happend⟩
      exact concat_map_eq_some (fun x hx p hp => ih x hx hp) hrest
  | @struct struct fields v declared keys entries ih =>
      rw [encodeTyped_struct, declared, Option.bind_some] at hp
      rw [encTyped, fixtureFields_eq, declared, Option.bind_some]
      simp only [lookup_encEntries]
      apply concat_map_eq_some ?_ hp
      intro fld _ p hp
      obtain ⟨x, hx, hp⟩ := Option.bind_eq_some_iff.mp hp
      rw [hx, Option.bind_some]
      exact ih (fld, x) (mem_of_lookup hx) hp

end DdsOrchestrator.LayaWorker
