import DdsOrchestrator.Orchestrator.Http

/-!
Whom the HTTP boundary lets in. A task that is published is one of a caller who showed a
token of the file, or of a node that serves its own host alone and has no file; except that
a file in which every line is passed over counts, on a loopback address, as no file at all.
-/

namespace DdsOrchestrator.Orchestrator

/-- The boundary as it was started. -/
structure HttpArgs where
  bindIp : IpAddr
  port : UInt16
  expose : Bool
  authFile : Option AuthFile
  allowedModels : List String
  limits : HttpLimits

def HttpArgs.load (args : HttpArgs) : Except HttpConfigError HttpConfig :=
  HttpConfig.load args.bindIp args.port args.expose args.authFile args.allowedModels args.limits

/-- The line is one of the file. -/
def HttpArgs.HasLine (args : HttpArgs) (line : String) : Prop :=
  ∃ file contents, args.authFile = some file ∧ file.contents = .ok contents ∧
    line ∈ fileLines contents

/-- There is a file, and it holds no credential. -/
def HttpArgs.EmptyFile (args : HttpArgs) : Prop :=
  ∃ file contents, args.authFile = some file ∧ file.contents = .ok contents ∧
    ∀ line ∈ fileLines contents, skipped line = true

/-- The task may be published for the request. -/
structure Admitted (args : HttpArgs) (request : HttpRequest) (task : Dataspace.Task) : Prop where
  caller : args.authFile = none ∧ args.bindIp.isLoopback = true ∨
    ∃ client token, request.authorization = some ("Bearer " ++ token) ∧
      args.HasLine (client ++ "=" ++ token) ∧ task.clientId = client
  within : ∃ chat, request.body = some chat ∧ WithinLimits args.limits args.allowedModels chat

/-- Only what is admitted is published, and everything else is refused. -/
structure AdmissionHolds (args : HttpArgs) (request : HttpRequest)
    (answer : Except HttpError ChatResponse × List Dataspace.Task) : Prop where
  admitted : ∀ task ∈ answer.2, Admitted args request task
  refused : answer.2 = [] → ∃ e, answer.1 = .error e

/-- No token of the file has the digest of another token that the request carries. -/
def Uncollided (args : HttpArgs) (request : HttpRequest) : Prop :=
  ∀ line client token bearer, args.HasLine line → splitOnce '=' line = some (client, token) →
    request.authorization = some ("Bearer " ++ bearer) →
      tokenDigest token = tokenDigest bearer → token = bearer

variable {args : HttpArgs} {config : HttpConfig} {env : HttpEnv} {request : HttpRequest}
  {identity : String} {chat : ChatRequest}

theorem clientId_publishedTask :
    (publishedTask env (newTask identity env chat)).clientId = identity := by
  rw [publishedTask, OrchestratorDds.dispatchTask]
  split
  · rfl
  · split
    · rfl
    · rfl

/-- Where the configuration has no credential. -/
theorem credentials_nil_iff (hload : args.load = .ok config) :
    config.credentials = [] ↔ args.authFile = none ∨ args.EmptyFile := by
  obtain ⟨-, -, -, hcredentials, -⟩ := HttpConfig.load_ok hload
  cases hfile : args.authFile with
  | none =>
      rw [hfile] at hcredentials
      exact iff_of_true (Except.ok.inj hcredentials).symm (.inl rfl)
  | some file =>
      rw [hfile] at hcredentials
      obtain ⟨contents, hcontents, -, hnil⟩ := loadCredentials_ok hcredentials
      rw [hnil]
      constructor
      · exact fun hall => .inr ⟨file, contents, hfile, hcontents, hall⟩
      · rintro (hnone | ⟨file', contents', hfile', hcontents', hall⟩)
        · cases hnone
        · rw [hfile] at hfile'
          cases hfile'
          rw [hcontents] at hcontents'
          cases hcontents'
          exact hall

/-- A credential is of a line of the file. -/
theorem line_of_credential (hload : args.load = .ok config) {c : Credential}
    (hc : c ∈ config.credentials) :
    ∃ line token, args.HasLine line ∧ splitOnce '=' line = some (c.clientId, token) ∧
      c.tokenDigest = tokenDigest token := by
  obtain ⟨-, -, -, hcredentials, -⟩ := HttpConfig.load_ok hload
  cases hfile : args.authFile with
  | none =>
      rw [hfile] at hcredentials
      have hnil : config.credentials = [] := (Except.ok.inj hcredentials).symm
      rw [hnil] at hc
      cases hc
  | some file =>
      rw [hfile] at hcredentials
      obtain ⟨contents, hcontents, hfrom, -⟩ := loadCredentials_ok hcredentials
      obtain ⟨line, hline, token, hsplit, hdigest⟩ := hfrom c hc
      exact ⟨line, token, ⟨file, contents, hfile, hcontents, hline⟩, hsplit, hdigest⟩

/-- No line of a file without credentials is one of the trusted caller. -/
theorem not_hasLine_local (hempty : args.EmptyFile) (token : String) :
    ¬ args.HasLine ("local-trusted" ++ "=" ++ token) := by
  rintro ⟨file, contents, hfile, hcontents, hline⟩
  obtain ⟨file', contents', hfile', hcontents', hall⟩ := hempty
  rw [hfile] at hfile'
  cases hfile'
  rw [hcontents] at hcontents'
  cases hcontents'
  have hskip := hall _ hline
  have hhead : ("local-trusted" ++ "=" ++ token).toList.head? = some 'l' := by
    rw [String.toList_append, String.toList_append]
    rfl
  rw [skipped, decide_eq_true_eq, hhead] at hskip
  obtain hblank | hcomment := hskip
  · rw [hblank] at hhead
    cases hhead
  · cases hcomment

/-- The boundary lets in whom it should, unless it was started on a loopback address with a
file that holds no credential and the request has nothing else against it. -/
theorem admission_holds_iff (hload : args.load = .ok config)
    (hsha : Uncollided args request) :
    AdmissionHolds args request (authorizeAndLimit config env request) ↔
      ¬ (args.bindIp.isLoopback = true ∧ args.EmptyFile ∧
        ∃ chat, Acceptable args.limits args.allowedModels env request chat) := by
  obtain ⟨hbind, hlimits, hmodels, -, hexternal⟩ := HttpConfig.load_ok hload
  have hnil := credentials_nil_iff hload
  obtain ⟨identity, chat, hidentity, hacceptable, hpublished⟩ | ⟨hnone, e, hrefused⟩ :=
    authorizeAndLimit_cases config env request
  · rw [hlimits, hmodels] at hacceptable
    have hwithin : ∃ chat, request.body = some chat ∧
        WithinLimits args.limits args.allowedModels chat :=
      ⟨chat, hacceptable.body, hacceptable.toWithinLimits⟩
    have hintro : (∀ task : Dataspace.Task, task.clientId = identity →
        Admitted args request task) →
        AdmissionHolds args request (authorizeAndLimit config env request) := by
      intro hadmitted
      refine ⟨fun task htask => ?_, fun hempty => ?_⟩
      · rw [hpublished, List.mem_singleton] at htask
        exact hadmitted task (htask ▸ clientId_publishedTask)
      · rw [hpublished] at hempty
        cases hempty
    obtain ⟨hcredentials, hloopback, rfl⟩ | ⟨bearer, c, hheader, hc, hdigest, rfl⟩ :=
      HttpConfig.authenticate_eq_some hidentity
    · rw [hbind] at hloopback
      obtain hfile | hempty := hnil.mp hcredentials
      · refine iff_of_true (hintro fun task _ => ⟨.inl ⟨hfile, hloopback⟩, hwithin⟩) ?_
        rintro ⟨-, ⟨file, contents, hsome, -⟩, -⟩
        rw [hfile] at hsome
        cases hsome
      · -- the trusted caller has no line in the file
        refine iff_of_false (fun h => ?_) (not_not.mpr ⟨hloopback, hempty, chat, hacceptable⟩)
        have hadmitted := h.admitted _ (hpublished ▸ List.mem_singleton_self _)
        obtain ⟨hfile, -⟩ | ⟨client, token, -, hline, hclient⟩ := hadmitted.caller
        · obtain ⟨file, contents, hsome, -⟩ := hempty
          rw [hfile] at hsome
          cases hsome
        · rw [clientId_publishedTask] at hclient
          rw [← hclient] at hline
          exact not_hasLine_local hempty token hline
    · obtain ⟨line, token, hline, hsplit, htoken⟩ := line_of_credential hload hc
      have hsame : token = bearer :=
        hsha line _ _ _ hline hsplit hheader (htoken.symm.trans hdigest)
      subst hsame
      rw [splitOnce_eq_some hsplit] at hline
      refine iff_of_true (hintro fun task htask =>
        ⟨.inr ⟨c.clientId, token, hheader, hline, htask⟩, hwithin⟩) ?_
      rintro ⟨-, hempty, -⟩
      rw [hnil.mpr (.inr hempty)] at hc
      cases hc
  · -- of a request that is refused, an empty file cannot have been the reason
    refine iff_of_true ⟨?_, ?_⟩ ?_
    · rw [hrefused]
      intro task htask
      cases htask
    · exact fun _ => ⟨e, congrArg Prod.fst hrefused⟩
    · rintro ⟨hloopback, hempty, chat, hacceptable⟩
      have htrusted := HttpConfig.authenticate_trusted request.authorization
        (hnil.mpr (.inr hempty)) (hbind.symm ▸ hloopback)
      rw [← hlimits, ← hmodels] at hacceptable
      exact hnone _ chat htrusted hacceptable

/-! A node that serves others, and one that serves its own host. -/

def tenantToken : String := "test-only-not-secret-token-00000000"

def tenantFile : AuthFile := ⟨.ok 384, .ok ("# tenants\ntenant-alpha=" ++ tenantToken ++ "\n")⟩

def servingArgs : HttpArgs :=
  ⟨.v4 0 0 0 0, 8080, true, some tenantFile, ["allowed-model"], .default⟩

def servingConfig : HttpConfig :=
  ⟨.v4 0 0 0 0, 8080, .default, ["allowed-model"], [⟨"tenant-alpha", tokenDigest tenantToken⟩]⟩

def tenantRequest : HttpRequest :=
  ⟨some ("Bearer " ++ tenantToken), 90,
    some ⟨"allowed-model", [⟨"user", "hello"⟩], none, some 32, none⟩, false⟩

def quietEnv : HttpEnv :=
  ⟨32, 0, "task-1", 0, ⟨id, fun _ => .rfl⟩, .new false, true, []⟩

theorem servingArgs_load : servingArgs.load = .ok servingConfig := by
  rfl

theorem servingArgs_uncollided : Uncollided servingArgs tenantRequest := by
  rintro line client token bearer ⟨file, contents, hfile, hcontents, hline⟩ hsplit hheader -
  cases hfile
  cases hcontents
  have hlines : fileLines ("# tenants\ntenant-alpha=" ++ tenantToken ++ "\n") =
      ["# tenants", "tenant-alpha=" ++ tenantToken] := rfl
  have hbearer : tenantToken = bearer :=
    (String.append_right_inj "Bearer ").mp (Option.some.inj hheader)
  rw [hlines, List.mem_cons, List.mem_singleton] at hline
  obtain rfl | rfl := hline
  · cases hsplit
  · have hfirst : splitOnce '=' ("tenant-alpha=" ++ tenantToken) =
        some ("tenant-alpha", tenantToken) := rfl
    rw [hfirst] at hsplit
    cases hsplit
    exact hbearer

theorem tenant_is_let_in :
    AdmissionHolds servingArgs tenantRequest
      (authorizeAndLimit servingConfig quietEnv tenantRequest) := by
  refine (admission_holds_iff servingArgs_load servingArgs_uncollided).mpr ?_
  rintro ⟨hloopback, -⟩
  cases hloopback

/-- Every tenant has been taken out of the file. -/
def ownArgs : HttpArgs :=
  ⟨.v4 127 0 0 1, 8080, false, some ⟨.ok 384, .ok "# tenants\n"⟩, [], .default⟩

def ownConfig : HttpConfig := ⟨.v4 127 0 0 1, 8080, .default, [], []⟩

def anonymousRequest : HttpRequest :=
  ⟨none, 90, some ⟨"allowed-model", [⟨"user", "hello"⟩], none, some 32, none⟩, false⟩

theorem empty_file_lets_anyone_in :
    ownArgs.load = .ok ownConfig ∧
      (authorizeAndLimit ownConfig quietEnv anonymousRequest).2.map Dataspace.Task.clientId =
        ["local-trusted"] ∧
      ¬ AdmissionHolds ownArgs anonymousRequest
          (authorizeAndLimit ownConfig quietEnv anonymousRequest) := by
  refine ⟨rfl, by decide, fun h => ?_⟩
  obtain ⟨task, htask⟩ : ∃ task, task ∈ (authorizeAndLimit ownConfig quietEnv
      anonymousRequest).2 := ⟨_, List.mem_cons_self⟩
  obtain ⟨hfile, -⟩ | ⟨client, token, hheader, -⟩ := (h.admitted task htask).caller
  · cases hfile
  · cases hheader

end DdsOrchestrator.Orchestrator
