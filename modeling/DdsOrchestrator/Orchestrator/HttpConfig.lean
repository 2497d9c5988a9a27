import Mathlib.Data.List.Induction
import DdsOrchestrator.Lib.Lines
import DdsOrchestrator.Lib.Sha256

/-!
What the HTTP boundary is configured with. The credentials are read from a file of lines
`client=token`; a line that is empty or begins with `#` is passed over. An address that is
not a loopback one is served only with credentials and a list of models. On a loopback
address a request without a credential is trusted if there are no credentials, be it that no
file was given or that the file has none.
-/

namespace DdsOrchestrator.Orchestrator

def minTokenBytes : ℕ := 32

structure HttpLimits where
  bodyBytes : ℕ
  messageCount : ℕ
  messageBytes : ℕ
  maxTokens : UInt32
  concurrentRequests : ℕ
  ddsWaitTimeoutNs : ℕ
  deriving DecidableEq

def HttpLimits.default : HttpLimits :=
  ⟨1048576, 64, 262144, 8192, 32, 120000000000⟩

abbrev TokenDigest := Sha256.Working

def tokenDigest (token : String) : TokenDigest :=
  Sha256.digest (token.toUTF8.data.toList.map UInt8.toNat)

structure Credential where
  clientId : String
  tokenDigest : TokenDigest
  deriving DecidableEq

inductive IpAddr where
  | v4 (a b c d : UInt8)
  | v6 (bits : BitVec 128)
  deriving DecidableEq

def IpAddr.isLoopback : IpAddr → Bool
  | v4 a _ _ _ => a = 127
  | v6 bits => bits = 1

/-- A set of models is given by its elements. -/
structure HttpConfig where
  bindIp : IpAddr
  port : UInt16
  limits : HttpLimits
  allowedModels : List String
  credentials : List Credential
  deriving DecidableEq

inductive HttpConfigError where
  | exposureRequired
  | authenticationRequired
  | modelAllowlistRequired
  | zeroLimit (name : String)
  | authFileRead (source : String)
  | authFilePermissions
  | invalidCredential (line : ℕ)
  | duplicateIdentity (line : ℕ)
  | duplicateCredential (line : ℕ)
  deriving DecidableEq

def HttpConfigError.message : HttpConfigError → String
  | exposureRequired => "external HTTP bind requires --http-expose"
  | authenticationRequired => "external HTTP bind requires an authentication file"
  | modelAllowlistRequired => "external HTTP bind requires at least one allowed model"
  | zeroLimit name => "HTTP limit " ++ name ++ " must be greater than zero"
  | authFileRead _ => "could not read HTTP authentication file"
  | authFilePermissions => "HTTP authentication file has unsafe permissions"
  | invalidCredential line => "invalid HTTP authentication entry on line " ++ toString line
  | duplicateIdentity line => "duplicate HTTP client identity on line " ++ toString line
  | duplicateCredential line => "duplicate HTTP credential on line " ++ toString line

/-! ### The file of credentials -/

/-- The mode of the file and its text, each of which may fail to be read. -/
structure AuthFile where
  mode : Except String ℕ
  contents : Except String String

def fileLines (contents : String) : List String :=
  (Lines.lines contents.toList).map String.ofList

def splitOnce (sep : Char) (s : String) : Option (String × String) :=
  match s.toList.dropWhile (· ≠ sep) with
  | [] => none
  | _ :: rest => some (.ofList (s.toList.takeWhile (· ≠ sep)), .ofList rest)

def stripPrefix (pre s : String) : Option String :=
  if pre.toList <+: s.toList then some (.ofList (s.toList.drop pre.toList.length)) else none

/-- The line holds no credential. -/
def skipped (line : String) : Bool := line = "" ∨ line.toList.head? = some '#'

/-- Letters, digits and three more characters, each of one byte. -/
def validIdentity (clientId : String) : Bool :=
  clientId ≠ "" ∧ clientId.utf8ByteSize ≤ 128 ∧
    clientId.toList.all fun c => c.isAlphanum || c = '-' || c = '_' || c = '.'

/-- The credentials of the lines from the number `lineNumber` on. The identities and the
digests that were seen are those of the credentials so far. -/
def parseCredentials : ℕ → List String → List Credential → Except HttpConfigError (List Credential)
  | _, [], credentials => .ok credentials
  | lineNumber, line :: lines, credentials =>
      if skipped line then parseCredentials (lineNumber + 1) lines credentials
      else
        match splitOnce '=' line with
        | none => .error (.invalidCredential lineNumber)
        | some (clientId, token) =>
            if !validIdentity clientId || token.utf8ByteSize < minTokenBytes then
              .error (.invalidCredential lineNumber)
            else if clientId ∈ credentials.map Credential.clientId then
              .error (.duplicateIdentity lineNumber)
            else if tokenDigest token ∈ credentials.map Credential.tokenDigest then
              .error (.duplicateCredential lineNumber)
            else
              parseCredentials (lineNumber + 1) lines
                (credentials ++ [⟨clientId, tokenDigest token⟩])

def loadCredentials (file : AuthFile) : Except HttpConfigError (List Credential) :=
  match file.mode with
  | .error err => .error (.authFileRead err)
  | .ok mode =>
      -- 0o077, the permissions of the group and of the others
      if mode &&& 63 ≠ 0 then .error .authFilePermissions
      else
        match file.contents with
        | .error err => .error (.authFileRead err)
        | .ok contents => parseCredentials 1 (fileLines contents) []

def validateLimits (limits : HttpLimits) : Except HttpConfigError Unit :=
  let values := [("body-bytes", limits.bodyBytes), ("message-count", limits.messageCount),
    ("message-bytes", limits.messageBytes), ("max-tokens", limits.maxTokens.toNat),
    ("concurrent-requests", limits.concurrentRequests)]
  match values.find? fun value => value.2 = 0 with
  | some (name, _) => .error (.zeroLimit name)
  | none =>
      if limits.ddsWaitTimeoutNs = 0 then .error (.zeroLimit "dds-wait-timeout-ms") else .ok ()

namespace HttpConfig

/-- What an address that is not a loopback one asks for. -/
def checkExternal (bindIp : IpAddr) (expose : Bool) (credentials : List Credential)
    (allowedModels : List String) : Except HttpConfigError Unit :=
  if bindIp.isLoopback then .ok ()
  else if !expose then .error .exposureRequired
  else if credentials.isEmpty then .error .authenticationRequired
  else if allowedModels.isEmpty then .error .modelAllowlistRequired
  else .ok ()

def credentialsOf : Option AuthFile → Except HttpConfigError (List Credential)
  | some file => loadCredentials file
  | none => .ok []

def load (bindIp : IpAddr) (port : UInt16) (expose : Bool) (authFile : Option AuthFile)
    (allowedModels : List String) (limits : HttpLimits) : Except HttpConfigError HttpConfig :=
  match validateLimits limits with
  | .error e => .error e
  | .ok () =>
      match credentialsOf authFile with
      | .error e => .error e
      | .ok credentials =>
          match checkExternal bindIp expose credentials allowedModels with
          | .error e => .error e
          | .ok () => .ok ⟨bindIp, port, limits, allowedModels, credentials⟩

/-- The value of a header as a text, if it is visible ASCII. A value is given by the
characters with the numbers of its bytes. -/
def headerToStr (value : String) : Option String :=
  if value.toList.all fun c => c = '\t' || (32 ≤ c.toNat && c.toNat < 127) then some value else none

def authenticate (config : HttpConfig) (authorization : Option String) : Option String :=
  if config.credentials.isEmpty && config.bindIp.isLoopback then some "local-trusted"
  else
    match (authorization.bind headerToStr).bind (stripPrefix "Bearer ") with
    | none => none
    | some bearer =>
        if bearer = "" then none
        else
          config.credentials.foldl
            (fun matched credential =>
              if credential.tokenDigest = tokenDigest bearer then some credential.clientId
              else matched)
            none

end HttpConfig

/-! ### What a line gives -/

theorem splitOnce_eq_some {sep : Char} {s a b : String} (h : splitOnce sep s = some (a, b)) :
    s = a ++ String.singleton sep ++ b := by
  unfold splitOnce at h
  split at h
  · cases h
  · next c rest hdrop =>
      cases h
      have hc : c = sep := by
        have hhead := List.head?_dropWhile_not (fun d => decide (d ≠ sep)) s.toList
        rw [hdrop] at hhead
        exact not_not.mp (of_decide_eq_false hhead)
      have hsplit : s.toList.takeWhile (fun d => decide (d ≠ sep)) ++ c :: rest = s.toList := by
        rw [← hdrop]
        exact List.takeWhile_append_dropWhile
      apply String.toList_inj.mp
      rw [String.toList_append, String.toList_append, String.toList_ofList, String.toList_ofList,
        String.toList_singleton, List.append_assoc, List.singleton_append, ← hc]
      rw [hc] at hsplit ⊢
      exact hsplit.symm

theorem stripPrefix_eq_some {pre s t : String} (h : stripPrefix pre s = some t) : s = pre ++ t := by
  unfold stripPrefix at h
  split at h
  · next hprefix =>
      cases h
      obtain ⟨rest, hrest⟩ := hprefix
      apply String.toList_inj.mp
      rw [String.toList_append, String.toList_ofList, ← hrest, List.drop_left]
  · cases h

/-- Credentials come of lines, and of every line that is not passed over comes one. -/
theorem parseCredentials_ok {lineNumber : ℕ} {lines : List String}
    {before credentials : List Credential}
    (h : parseCredentials lineNumber lines before = .ok credentials) :
    (∀ c ∈ credentials, c ∈ before ∨ ∃ line ∈ lines, ∃ token,
        splitOnce '=' line = some (c.clientId, token) ∧ c.tokenDigest = tokenDigest token) ∧
      (∀ c ∈ before, c ∈ credentials) ∧
      ((∀ line ∈ lines, skipped line = true) → credentials = before) ∧
      ((∃ line ∈ lines, skipped line = false) → credentials ≠ []) := by
  induction lines generalizing lineNumber before with
  | nil =>
      cases h
      exact ⟨fun c hc => .inl hc, fun c hc => hc, fun _ => rfl, fun ⟨_, hline, _⟩ => nomatch hline⟩
  | cons line lines ih =>
      rw [parseCredentials] at h
      split at h
      · next hskip =>
          obtain ⟨hfrom, hkeep, hall, hsome⟩ := ih h
          refine ⟨fun c hc => ?_, hkeep, fun hlines => ?_, fun hlines => ?_⟩
          · refine (hfrom c hc).imp_right ?_
            rintro ⟨other, hother, hfound⟩
            exact ⟨other, List.mem_cons_of_mem _ hother, hfound⟩
          · exact hall fun other hother => hlines other (List.mem_cons_of_mem _ hother)
          · obtain ⟨other, hother, hkept⟩ := hlines
            obtain rfl | hother := List.mem_cons.mp hother
            · rw [hskip] at hkept
              cases hkept
            · exact hsome ⟨other, hother, hkept⟩
      · next hkept =>
          split at h
          · cases h
          · next clientId token hsplit =>
              split at h
              · cases h
              · split at h
                · cases h
                · split at h
                  · cases h
                  · obtain ⟨hfrom, hkeep, hall, hsome⟩ := ih h
                    have hnew : ⟨clientId, tokenDigest token⟩ ∈ credentials :=
                      hkeep _ (List.mem_append_right _ (List.mem_singleton_self _))
                    refine ⟨fun c hc => ?_, fun c hc => hkeep c (List.mem_append_left _ hc),
                      fun hlines => ?_, fun _ => List.ne_nil_of_mem hnew⟩
                    · obtain hold | ⟨other, hother, hfound⟩ := hfrom c hc
                      · obtain hold | hlast := List.mem_append.mp hold
                        · exact .inl hold
                        · rw [List.mem_singleton.mp hlast]
                          exact .inr ⟨line, List.mem_cons_self, token, hsplit, rfl⟩
                      · exact .inr ⟨other, List.mem_cons_of_mem _ hother, hfound⟩
                    · exact absurd (hlines line List.mem_cons_self) hkept

/-- The credentials of a file: each is of a line, and there is none exactly if every line is
passed over. -/
theorem loadCredentials_ok {file : AuthFile} {credentials : List Credential}
    (h : loadCredentials file = .ok credentials) :
    ∃ contents, file.contents = .ok contents ∧
      (∀ c ∈ credentials, ∃ line ∈ fileLines contents, ∃ token,
        splitOnce '=' line = some (c.clientId, token) ∧ c.tokenDigest = tokenDigest token) ∧
      (credentials = [] ↔ ∀ line ∈ fileLines contents, skipped line = true) := by
  unfold loadCredentials at h
  split at h
  · cases h
  · split at h
    · cases h
    · split at h
      · cases h
      · next contents hcontents =>
          obtain ⟨hfrom, -, hall, hsome⟩ := parseCredentials_ok h
          refine ⟨contents, hcontents, fun c hc => ?_, fun hnil line hline => ?_, hall⟩
          · exact (hfrom c hc).resolve_left List.not_mem_nil
          · by_contra hkept
            exact hsome ⟨line, hline, Bool.eq_false_iff.mpr hkept⟩ hnil

namespace HttpConfig

variable {bindIp : IpAddr} {port : UInt16} {expose : Bool} {authFile : Option AuthFile}
  {allowedModels : List String} {limits : HttpLimits} {config : HttpConfig}

theorem credentials_of_external {credentials : List Credential}
    (h : checkExternal bindIp expose credentials allowedModels = .ok ()) :
    bindIp.isLoopback = true ∨ credentials ≠ [] := by
  unfold checkExternal at h
  split at h
  · next hloopback => exact .inl hloopback
  · split at h
    · cases h
    · split at h
      · cases h
      · next hcredentials =>
          rw [List.isEmpty_iff] at hcredentials
          exact .inr hcredentials

theorem load_ok (h : load bindIp port expose authFile allowedModels limits = .ok config) :
    config.bindIp = bindIp ∧ config.limits = limits ∧ config.allowedModels = allowedModels ∧
      credentialsOf authFile = .ok config.credentials ∧
      (bindIp.isLoopback = true ∨ config.credentials ≠ []) := by
  unfold load at h
  split at h
  · cases h
  · split at h
    · cases h
    · next credentials hcredentials =>
        split at h
        · cases h
        · next hexternal =>
            cases h
            exact ⟨rfl, rfl, rfl, hcredentials, credentials_of_external hexternal⟩

/-- Where the loop over the credentials has found one. -/
theorem exists_of_foldl_matched {credentials : List Credential} {digest : TokenDigest}
    {identity : String}
    (h : credentials.foldl (fun matched credential =>
      if credential.tokenDigest = digest then some credential.clientId else matched) none =
        some identity) :
    ∃ c ∈ credentials, c.tokenDigest = digest ∧ c.clientId = identity := by
  induction credentials using List.reverseRecOn with
  | nil => cases h
  | append_singleton credentials c ih =>
      rw [List.foldl_concat] at h
      split at h
      · next hdigest => exact ⟨c, List.mem_append_right _ (List.mem_singleton_self _), hdigest,
          Option.some.inj h⟩
      · obtain ⟨other, hother, hfound⟩ := ih h
        exact ⟨other, List.mem_append_left _ hother, hfound⟩

theorem authenticate_trusted (authorization : Option String) (hnil : config.credentials = [])
    (hloopback : config.bindIp.isLoopback = true) :
    config.authenticate authorization = some "local-trusted" := by
  rw [authenticate, hnil, hloopback]
  rfl

/-- A caller is trusted without a credential, or is the client of a credential whose token
has the digest of what the header carries. -/
theorem authenticate_eq_some {authorization : Option String} {identity : String}
    (h : config.authenticate authorization = some identity) :
    (config.credentials = [] ∧ config.bindIp.isLoopback = true ∧ identity = "local-trusted") ∨
      ∃ bearer c, authorization = some ("Bearer " ++ bearer) ∧ c ∈ config.credentials ∧
        c.tokenDigest = tokenDigest bearer ∧ c.clientId = identity := by
  unfold authenticate at h
  split at h
  · next htrusted =>
      rw [Bool.and_eq_true, List.isEmpty_iff] at htrusted
      cases h
      exact .inl ⟨htrusted.1, htrusted.2, rfl⟩
  · split at h
    · cases h
    · next bearer hbearer =>
        split at h
        · cases h
        · right
          obtain ⟨value, hvalue, hprefix⟩ := Option.bind_eq_some_iff.mp hbearer
          obtain ⟨raw, rfl, htext⟩ := Option.bind_eq_some_iff.mp hvalue
          have hraw : raw = value := by
            unfold headerToStr at htext
            split at htext
            · exact Option.some.inj htext
            · cases htext
          obtain ⟨c, hc, hdigest, hid⟩ := exists_of_foldl_matched h
          exact ⟨bearer, c, by rw [hraw, stripPrefix_eq_some hprefix], hc, hdigest, hid⟩

end HttpConfig

end DdsOrchestrator.Orchestrator
