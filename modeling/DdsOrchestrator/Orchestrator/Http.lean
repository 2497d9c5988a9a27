import DdsOrchestrator.Lib.JsonText
import DdsOrchestrator.Orchestrator.Dds
import DdsOrchestrator.Orchestrator.HttpConfig

/-!
The HTTP boundary. A request for a task goes through the caller's identity, the number of
requests under way, the size and the form of the body and the limits of the configuration,
and becomes a task then, which is given to the dataspace. Whatever stops it on the way, it
is answered with an error and nothing has been published.
-/

namespace DdsOrchestrator.Orchestrator

open Dataspace (Task AgentState FloatBits)

structure Message where
  role : String
  content : String
  deriving DecidableEq

structure ChatRequest where
  model : String
  messages : List Message
  temperature : Option FloatBits
  maxTokens : Option UInt32
  stream : Option Bool
  deriving DecidableEq

/-- A request for a task: the header, the body by its size and by what its JSON says if it
can be read, and whether the caller waits for the end of the task. -/
structure HttpRequest where
  authorization : Option String
  bodyBytes : ℕ
  body : Option ChatRequest
  sync : Bool
  deriving DecidableEq

inductive HttpError where
  | unauthorized
  | forbidden
  | payloadTooLarge
  | unprocessable
  | tooManyRequests
  | gatewayTimeout
  | internal
  deriving DecidableEq

/-- The status of the answer and its code. -/
def HttpError.response : HttpError → ℕ × String
  | unauthorized => (401, "unauthorized")
  | forbidden => (403, "forbidden")
  | payloadTooLarge => (413, "payload_too_large")
  | unprocessable => (422, "unprocessable_request")
  | tooManyRequests => (429, "request_quota_exceeded")
  | gatewayTimeout => (504, "dds_wait_timeout")
  | internal => (500, "internal_error")

/-- A published task, or for a caller who waits the task at its end. -/
inductive ChatResponse where
  | pending (taskId : String)
  | terminal (task : Task)
  deriving DecidableEq

/-- What a request meets: how many more requests may be under way, the clock, the new id, the
orchestrator that may choose the agent, whether the dataspace takes the task, and what is
read of it until the caller's time is over. -/
structure HttpEnv where
  permits : ℕ
  nowNs : UInt64
  taskId : String
  serializationNs : UInt64
  iteration : Iteration AgentState
  orchestrator : OrchestratorDds
  publish : Bool
  reads : List (Option Task)

/-- The bits of 0.7. -/
def defaultTemperature : FloatBits := 0x3f333333

/-- A number from -2 to 2. Without the sign the bits are in the order of the numbers, and 2
is `0x40000000`; an infinity or what is no number is above it. -/
def temperatureOk (bits : FloatBits) : Bool := bits.toNat % 2 ^ 31 ≤ 0x40000000

/-- The bytes of all roles and contents, if the sum can be counted. -/
def messageBytes (messages : List Message) : Option ℕ := addMessages 0 messages
where
  checkedAdd (a b : ℕ) : Option ℕ := if a + b < 2 ^ 64 then some (a + b) else none
  addMessages (total : ℕ) : List Message → Option ℕ
    | [] => some total
    | message :: messages =>
        match (checkedAdd total message.role.utf8ByteSize).bind
            (checkedAdd · message.content.utf8ByteSize) with
        | none => none
        | some total => addMessages total messages

def messagesJson (messages : List Message) : String :=
  "[" ++ ",".intercalate (messages.map fun message =>
    Json.object [("role", .str message.role), ("content", .str message.content)]) ++ "]"

def newTask (identity : String) (env : HttpEnv) (request : ChatRequest) : Task where
  taskId := env.taskId
  clientId := identity
  assignedAgent := ""
  targetAgent := ""
  modelRequired := 0
  modelName := request.model
  messagesJson := messagesJson request.messages
  temperature := request.temperature.getD defaultTemperature
  maxTokens := request.maxTokens.getD 256
  stream := request.stream.getD false
  status := 0
  priority := 5
  createdAtNs := env.nowNs
  assignedAtNs := 0
  startedAtNs := 0
  completedAtNs := 0
  deadlineNs := env.nowNs + 120000000000
  retryCount := 0
  finishReason := ""
  tSerializationNs := 0
  tTransportSendNs := 0
  tAgentQueueNs := 0
  tInferenceNs := 0
  tTransportReturnNs := 0
  tDeserializationNs := 0

def validatedTask (config : HttpConfig) (identity : String) (env : HttpEnv)
    (request : ChatRequest) : Except HttpError Task :=
  if request.model = "" ∨ request.messages = [] then .error .unprocessable
  else if config.allowedModels ≠ [] ∧ request.model ∉ config.allowedModels then .error .forbidden
  else if config.limits.messageCount < request.messages.length then .error .unprocessable
  -- a sum that cannot be counted is above every limit
  else if (messageBytes request.messages).all (config.limits.messageBytes < ·) then
    .error .payloadTooLarge
  else if request.maxTokens.getD 256 = 0 ∨
      config.limits.maxTokens < request.maxTokens.getD 256 then .error .unprocessable
  else if !temperatureOk (request.temperature.getD defaultTemperature) then
    .error .unprocessable
  else .ok (newTask identity env request)

/-- The task is read again and again until it is at its end or the time is over. -/
def waitForTask : List (Option Task) → Except HttpError ChatResponse
  | [] => .error .gatewayTimeout
  | some current :: reads =>
      if current.status = 3 ∨ current.status = 4 then .ok (.terminal current)
      else waitForTask reads
  | none :: reads => waitForTask reads

/-- The body is not read beyond its limit. -/
def extract (config : HttpConfig) (request : HttpRequest) : Except HttpError ChatRequest :=
  if config.limits.bodyBytes < request.bodyBytes then .error .payloadTooLarge
  else
    match request.body with
    | none => .error .unprocessable
    | some chat => .ok chat

/-- What is published of a valid task. -/
def publishedTask (env : HttpEnv) (task : Task) : Task :=
  (OrchestratorDds.dispatchTask env.iteration
    { task with tSerializationNs := env.serializationNs } env.orchestrator).2

/-- The answer, and the tasks that are given to the dataspace. -/
def submitTask (config : HttpConfig) (identity : String) (env : HttpEnv) (request : HttpRequest) :
    Except HttpError ChatResponse × List Task :=
  match extract config request with
  | .error e => (.error e, [])
  | .ok chat =>
      match validatedTask config identity env chat with
      | .error e => (.error e, [])
      | .ok task =>
          let response :=
            if !env.publish then .error .internal
            else if request.sync then waitForTask env.reads
            else .ok (.pending env.taskId)
          (response, [publishedTask env task])

def authorizeAndLimit (config : HttpConfig) (env : HttpEnv) (request : HttpRequest) :
    Except HttpError ChatResponse × List Task :=
  match config.authenticate request.authorization with
  | none => (.error .unauthorized, [])
  | some identity =>
      if env.permits = 0 then (.error .tooManyRequests, [])
      else submitTask config identity env request

/-! ### What passes -/

def totalBytes (messages : List Message) : ℕ :=
  (messages.map fun message => message.role.utf8ByteSize + message.content.utf8ByteSize).sum

variable {config : HttpConfig} {env : HttpEnv} {request : HttpRequest} {chat : ChatRequest}
  {identity : String} {task : Task}

/-- The sum is counted as long as it is a number of the machine. -/
theorem messageBytes_eq (messages : List Message) :
    messageBytes messages =
      if totalBytes messages < 2 ^ 64 then some (totalBytes messages) else none := by
  have hfrom : ∀ total, total < 2 ^ 64 → messageBytes.addMessages total messages =
      if total + totalBytes messages < 2 ^ 64 then some (total + totalBytes messages)
      else none := by
    induction messages with
    | nil => exact fun total htotal => (if_pos htotal).symm
    | cons message messages ih =>
        intro total htotal
        have hsum : totalBytes (message :: messages) =
            message.role.utf8ByteSize + message.content.utf8ByteSize + totalBytes messages := by
          simp [totalBytes]
        rw [messageBytes.addMessages, messageBytes.checkedAdd, hsum]
        by_cases hrole : total + message.role.utf8ByteSize < 2 ^ 64
        · rw [if_pos hrole, Option.bind_some, messageBytes.checkedAdd]
          by_cases hcontent :
              total + message.role.utf8ByteSize + message.content.utf8ByteSize < 2 ^ 64
          · have hassoc : total + (message.role.utf8ByteSize + message.content.utf8ByteSize +
                totalBytes messages) = total + message.role.utf8ByteSize +
                  message.content.utf8ByteSize + totalBytes messages := by omega
            rw [if_pos hcontent, hassoc]
            exact ih _ hcontent
          · rw [if_neg hcontent, if_neg (by omega)]
        · rw [if_neg hrole, if_neg (by omega)]
          rfl
  rw [messageBytes, hfrom 0 (by decide), Nat.zero_add]

/-- What the limits and the list of models ask of the body of a request. -/
structure WithinLimits (limits : HttpLimits) (allowedModels : List String) (chat : ChatRequest) :
    Prop where
  listed : allowedModels ≠ [] → chat.model ∈ allowedModels
  some_message : 1 ≤ chat.messages.length
  count : chat.messages.length ≤ limits.messageCount
  bytes : totalBytes chat.messages ≤ limits.messageBytes
  some_token : 1 ≤ chat.maxTokens.getD 256
  tokens : chat.maxTokens.getD 256 ≤ limits.maxTokens

/-- What is asked of the body of a request. -/
structure Valid (limits : HttpLimits) (allowedModels : List String) (chat : ChatRequest) : Prop
    extends WithinLimits limits allowedModels chat where
  model : chat.model ≠ ""
  counted : totalBytes chat.messages < 2 ^ 64
  temperature : temperatureOk (chat.temperature.getD defaultTemperature) = true

/-- A request becomes a task of its caller, or an error. -/
theorem validatedTask_cases (config : HttpConfig) (identity : String) (env : HttpEnv)
    (chat : ChatRequest) :
    (Valid config.limits config.allowedModels chat ∧
        validatedTask config identity env chat = .ok (newTask identity env chat)) ∨
      ¬ Valid config.limits config.allowedModels chat ∧
        ∃ e, validatedTask config identity env chat = .error e := by
  rw [validatedTask]
  by_cases hempty : chat.model = "" ∨ chat.messages = []
  · rw [if_pos hempty]
    refine .inr ⟨fun h => ?_, _, rfl⟩
    obtain hmodel | hmessages := hempty
    · exact h.model hmodel
    · have hsome := h.some_message
      rw [hmessages] at hsome
      cases hsome
  rw [if_neg hempty]
  by_cases hforbidden : config.allowedModels ≠ [] ∧ chat.model ∉ config.allowedModels
  · rw [if_pos hforbidden]
    exact .inr ⟨fun h => hforbidden.2 (h.listed hforbidden.1), _, rfl⟩
  rw [if_neg hforbidden]
  by_cases hcount : config.limits.messageCount < chat.messages.length
  · rw [if_pos hcount]
    exact .inr ⟨fun h => Nat.not_le.mpr hcount h.count, _, rfl⟩
  rw [if_neg hcount]
  by_cases hbytes : (messageBytes chat.messages).all (config.limits.messageBytes < ·) = true
  · rw [if_pos hbytes]
    refine .inr ⟨fun h => ?_, _, rfl⟩
    rw [messageBytes_eq, if_pos h.counted, Option.all_some, decide_eq_true_eq] at hbytes
    exact Nat.not_le.mpr hbytes h.bytes
  rw [if_neg hbytes]
  by_cases htokens : chat.maxTokens.getD 256 = 0 ∨
      config.limits.maxTokens < chat.maxTokens.getD 256
  · rw [if_pos htokens]
    refine .inr ⟨fun h => ?_, _, rfl⟩
    obtain hzero | hmany := htokens
    · have hsome := h.some_token
      rw [hzero] at hsome
      exact absurd hsome (by decide)
    · exact UInt32.not_le.mpr hmany h.tokens
  rw [if_neg htokens]
  by_cases htemperature : temperatureOk (chat.temperature.getD defaultTemperature) = true
  · rw [htemperature]
    rw [not_or] at hempty htokens
    have hcounted : totalBytes chat.messages < 2 ^ 64 := by
      by_contra hnot
      rw [messageBytes_eq, if_neg hnot] at hbytes
      exact hbytes rfl
    rw [messageBytes_eq, if_pos hcounted, Option.all_some, decide_eq_true_eq] at hbytes
    refine .inl ⟨⟨⟨fun hmodels => ?_, ?_, Nat.not_lt.mp hcount, Nat.not_lt.mp hbytes, ?_,
      UInt32.not_lt.mp htokens.2⟩, hempty.1, hcounted, htemperature⟩, rfl⟩
    · by_contra hnot
      exact hforbidden ⟨hmodels, hnot⟩
    · exact List.length_pos_of_ne_nil hempty.2
    · rw [UInt32.le_iff_toNat_le]
      have hne : (chat.maxTokens.getD 256).toNat ≠ 0 :=
        fun hzero => htokens.1 (UInt32.toNat_inj.mp hzero)
      exact Nat.one_le_iff_ne_zero.mpr hne
  · rw [if_pos (by simpa using htemperature)]
    exact .inr ⟨fun h => htemperature h.temperature, _, rfl⟩

/-- What is asked of a request besides the identity of its caller. -/
structure Acceptable (limits : HttpLimits) (allowedModels : List String) (env : HttpEnv)
    (request : HttpRequest) (chat : ChatRequest) : Prop extends
    Valid limits allowedModels chat where
  permit : env.permits ≠ 0
  size : request.bodyBytes ≤ limits.bodyBytes
  body : request.body = some chat

/-- One task of the caller is published, or none and the answer is an error. -/
theorem authorizeAndLimit_cases (config : HttpConfig) (env : HttpEnv) (request : HttpRequest) :
    (∃ identity chat, config.authenticate request.authorization = some identity ∧
        Acceptable config.limits config.allowedModels env request chat ∧
        (authorizeAndLimit config env request).2 =
          [publishedTask env (newTask identity env chat)]) ∨
      ((∀ identity chat, config.authenticate request.authorization = some identity →
          ¬ Acceptable config.limits config.allowedModels env request chat) ∧
        ∃ e, authorizeAndLimit config env request = (.error e, [])) := by
  rw [authorizeAndLimit]
  cases hidentity : config.authenticate request.authorization with
  | none => exact .inr ⟨nofun, _, rfl⟩
  | some identity =>
      dsimp only
      by_cases hpermits : env.permits = 0
      · rw [if_pos hpermits]
        exact .inr ⟨fun _ _ _ h => h.permit hpermits, _, rfl⟩
      rw [if_neg hpermits, submitTask, extract]
      by_cases hsize : config.limits.bodyBytes < request.bodyBytes
      · rw [if_pos hsize]
        exact .inr ⟨fun _ _ _ h => Nat.not_le.mpr hsize h.size, _, rfl⟩
      rw [if_neg hsize]
      cases hbody : request.body with
      | none => exact .inr ⟨fun _ _ _ h => by simpa [hbody] using h.body, _, rfl⟩
      | some chat =>
          obtain ⟨hvalid, htask⟩ | ⟨hinvalid, e, herror⟩ :=
            validatedTask_cases config identity env chat
          · exact .inl ⟨identity, chat, rfl, ⟨hvalid, hpermits, Nat.not_lt.mp hsize, hbody⟩,
              by simp only [htask]⟩
          · refine .inr ⟨fun _ other _ h => hinvalid ?_, e, by simp only [herror]⟩
            have hsame := h.body
            rw [hbody] at hsame
            rw [Option.some.inj hsame]
            exact h.toValid

end DdsOrchestrator.Orchestrator
