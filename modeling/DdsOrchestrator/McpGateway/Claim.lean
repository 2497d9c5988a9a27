import DdsOrchestrator.Lib.Assoc

/-!
Ownership claims. A claim is permanent: whoever creates it may dispatch the call
once, and everybody who comes later finds it taken. Claims live in memory, or as
files under a directory that are created exclusively; each attempt is one atomic
step. The file of a claim can be created and the attempt fail all the same, when
the owner could not be written; the call then stays claimed by nobody.
-/

namespace DdsOrchestrator.McpGateway

def maxCallIdBytes : Nat := 256

inductive ClaimError where
  | invalidCallId
  | invalidOwner
  | io (text : String)
  deriving DecidableEq

/-- The identity of a gateway, recorded with its claims. -/
structure OwnerId where
  raw : String
  nonempty : raw ≠ ""
  bounded : raw.utf8ByteSize ≤ maxCallIdBytes
  deriving DecidableEq

def OwnerId.parse (raw : String) : Except ClaimError OwnerId :=
  if h : raw = "" ∨ maxCallIdBytes < raw.utf8ByteSize then .error .invalidOwner
  else .ok ⟨raw, fun he => h (.inl he), not_lt.mp fun hlt => h (.inr hlt)⟩

inductive ClaimDecision where
  | won
  | alreadyClaimed
  deriving DecidableEq

/-- What the file system answers during one attempt: an error of `openat2` other
than that the file exists, and an error of the write or the sync. -/
structure Storage where
  openError : Option String
  writeError : Option String
  deriving DecidableEq

def Storage.sound : Storage := ⟨none, none⟩

def validateCallId (callId : String) : Except ClaimError Unit :=
  if callId = "" ∨ maxCallIdBytes < callId.utf8ByteSize then .error .invalidCallId else .ok ()

def hexDigit (n : Nat) : Char := "0123456789abcdef".toList.getD n '0'

def hexName (callId : String) : String :=
  String.ofList (callId.toByteArray.data.toList.flatMap fun byte =>
    [hexDigit (byte.toNat / 16), hexDigit (byte.toNat % 16)])

/-- The two stores: a map of owners, and the names of the files in a directory.
What is in the files is never read. -/
inductive ClaimStore where
  | memory (claims : Map String OwnerId)
  | file (root : List String)

namespace ClaimStore

/-- A claim for the call exists. -/
def claimed : ClaimStore → String → Bool
  | memory claims, callId => (claims.lookup callId).isSome
  | file root, callId => hexName callId ∈ root

def tryClaim (io : Storage) (callId : String) (owner : OwnerId) (store : ClaimStore) :
    Except ClaimError ClaimDecision × ClaimStore :=
  match validateCallId callId with
  | .error e => (.error e, store)
  | .ok _ =>
      match store with
      | memory claims =>
          match claims.lookup callId with
          | some _ => (.ok .alreadyClaimed, memory claims)
          | none => (.ok .won, memory (claims.insert callId owner))
      | file root =>
          match io.openError with
          | some text => (.error (.io text), file root)
          | none =>
              if hexName callId ∈ root then (.ok .alreadyClaimed, file root)
              else match io.writeError with
              | some text => (.error (.io text), file (hexName callId :: root))
              | none => (.ok .won, file (hexName callId :: root))

variable {io : Storage} {callId other : String} {owner : OwnerId} {store : ClaimStore}

/-- No attempt takes a claim away. -/
theorem tryClaim_keeps (h : store.claimed other) :
    (store.tryClaim io callId owner).2.claimed other := by
  unfold tryClaim
  cases validateCallId callId with
  | error e => exact h
  | ok _ =>
      cases store with
      | memory claims =>
          dsimp only
          cases hlook : claims.lookup callId with
          | some o => exact h
          | none =>
              simp only [claimed, Map.lookup_insert_if] at h ⊢
              split
              · rfl
              · exact h
      | file root =>
          have hroot : hexName other ∈ root := by simpa [claimed] using h
          dsimp only
          cases io.openError with
          | some text => exact h
          | none =>
              dsimp only
              split
              · exact h
              · cases io.writeError <;> simp [claimed, hroot]

/-- A claim is won only where there was none, and is there afterwards. -/
theorem tryClaim_won (h : (store.tryClaim io callId owner).1 = .ok .won) :
    store.claimed callId = false ∧ (store.tryClaim io callId owner).2.claimed callId := by
  unfold tryClaim at h ⊢
  cases hvalid : validateCallId callId with
  | error e => simp [hvalid] at h
  | ok _ =>
      cases store with
      | memory claims =>
          simp only [hvalid] at h ⊢
          cases hlook : claims.lookup callId with
          | some o => simp [hlook] at h
          | none => simp [claimed, hlook]
      | file root =>
          simp only [hvalid] at h ⊢
          cases hopen : io.openError with
          | some text => simp [hopen] at h
          | none =>
              simp only [hopen] at h ⊢
              by_cases hmem : hexName callId ∈ root
              · simp [hmem] at h
              · cases hwrite : io.writeError with
                | some text => simp [hwrite, hmem] at h
                | none => simp [claimed, hmem]

end ClaimStore

end DdsOrchestrator.McpGateway
