import DdsOrchestrator.Lib.Machine
import DdsOrchestrator.McpGateway.Claim

/-!
The two claim stores on the same calls. The file of a claim has two hexadecimal digits for
each byte of the call id, so that different ids have different files, and the name of a
file may have 255 bytes. An id of more than half as many is valid and has no file: its
claim can be won in memory, and fails in the directory.
-/

namespace DdsOrchestrator.McpGateway

/-! ### Names of files -/

theorem hexDigit_injective {m n : Nat} (hm : m < 16) (hn : n < 16)
    (h : hexDigit m = hexDigit n) : m = n := by
  have hdigits : ∀ a b : Fin 16, hexDigit a = hexDigit b → a = b := by decide
  exact congrArg Fin.val (hdigits ⟨m, hm⟩ ⟨n, hn⟩ h)

theorem utf8Size_hexDigit {n : Nat} (hn : n < 16) : (hexDigit n).utf8Size = 1 := by
  have hdigits : ∀ a : Fin 16, (hexDigit a).utf8Size = 1 := by decide
  exact hdigits ⟨n, hn⟩

/-- The digits of a byte. -/
def hexPair (byte : UInt8) : List Char :=
  [hexDigit (byte.toNat / 16), hexDigit (byte.toNat % 16)]

theorem hexPair_injective {a b : UInt8} (h : hexPair a = hexPair b) : a = b := by
  have ha := a.toNat_lt
  have hb := b.toNat_lt
  simp only [hexPair, List.cons.injEq, and_true] at h
  have hhigh := hexDigit_injective (by omega) (by omega) h.1
  have hlow := hexDigit_injective (by omega) (by omega) h.2
  exact UInt8.toNat_inj.mp (by omega)

theorem flatMap_hexPair_injective {as bs : List UInt8}
    (h : as.flatMap hexPair = bs.flatMap hexPair) : as = bs := by
  induction as generalizing bs with
  | nil =>
      cases bs with
      | nil => rfl
      | cons b bs => cases h
  | cons a as ih =>
      cases bs with
      | nil => cases h
      | cons b bs =>
          rw [List.flatMap_cons, List.flatMap_cons] at h
          obtain ⟨hhead, htail⟩ := List.append_inj h rfl
          rw [hexPair_injective hhead, ih htail]

theorem hexName_injective {callId other : String} (h : hexName callId = hexName other) :
    callId = other := by
  have hbytes := flatMap_hexPair_injective (String.ofList_injective h)
  apply String.toByteArray_inj.mp
  exact ByteArray.ext (Array.toList_inj.mp hbytes)

theorem utf8ByteSize_ofList_of_ascii {l : List Char} (h : ∀ c ∈ l, c.utf8Size = 1) :
    (String.ofList l).utf8ByteSize = l.length := by
  induction l with
  | nil => rfl
  | cons c l ih =>
      rw [← String.size_toByteArray, String.toByteArray_ofList] at ih ⊢
      rw [List.utf8Encode_cons, ByteArray.size_append, List.utf8Encode_singleton,
        ih fun d hd => h d (List.mem_cons_of_mem _ hd), List.size_toByteArray,
        String.length_utf8EncodeChar, h c List.mem_cons_self, List.length_cons]
      omega

/-- Two digits for each byte. -/
theorem utf8ByteSize_hexName (callId : String) :
    (hexName callId).utf8ByteSize = 2 * callId.utf8ByteSize := by
  have hlength : ∀ bytes : List UInt8, (bytes.flatMap hexPair).length = 2 * bytes.length := by
    intro bytes
    induction bytes with
    | nil => rfl
    | cons b bytes ih =>
        rw [List.flatMap_cons, List.length_append, ih]
        show 2 + 2 * bytes.length = 2 * (bytes.length + 1)
        omega
  have hascii : ∀ c ∈ callId.toByteArray.data.toList.flatMap hexPair, c.utf8Size = 1 := by
    intro c hc
    obtain ⟨byte, -, hc⟩ := List.mem_flatMap.mp hc
    have hbyte := byte.toNat_lt
    rcases List.mem_cons.mp hc with rfl | hc
    · exact utf8Size_hexDigit (by omega)
    · rw [List.mem_singleton.mp hc]
      exact utf8Size_hexDigit (by omega)
  show (String.ofList (callId.toByteArray.data.toList.flatMap hexPair)).utf8ByteSize = _
  rw [utf8ByteSize_ofList_of_ascii hascii, hlength, ← String.size_toByteArray]
  rfl

def maxNameBytes : Nat := 255

/-- A file system without faults. The name of a file may be too long for it. -/
def fileSystem (callId : String) : Storage where
  openError :=
    if maxNameBytes < (hexName callId).utf8ByteSize then some "File name too long (os error 36)"
    else none
  writeError := none

/-- The id has a file, if it may have a claim. -/
def HasFile (callId : String) : Prop :=
  validateCallId callId = .ok () → callId.utf8ByteSize ≤ 127

theorem openError_eq_none_iff {callId : String} :
    (fileSystem callId).openError = none ↔ callId.utf8ByteSize ≤ 127 := by
  show (if maxNameBytes < (hexName callId).utf8ByteSize then some _ else none) = none ↔ _
  rw [utf8ByteSize_hexName, maxNameBytes]
  split
  · exact iff_of_false (by simp) (by omega)
  · exact iff_of_true rfl (by omega)

theorem validateCallId_cases (callId : String) :
    validateCallId callId = .ok () ∨ validateCallId callId = .error .invalidCallId := by
  unfold validateCallId
  split
  · exact .inr rfl
  · exact .inl rfl

namespace ClaimStore

/-! ### Calls one after the other -/

def attempt (store : ClaimStore) (call : String × OwnerId) :
    Except ClaimError ClaimDecision × ClaimStore :=
  store.tryClaim (fileSystem call.1) call.1 call.2

/-- The store after these calls. -/
def after (store : ClaimStore) (calls : List (String × OwnerId)) : ClaimStore :=
  calls.foldl (fun s call => (s.attempt call).2) store

def answers (store : ClaimStore) (calls : List (String × OwnerId)) :
    List (Except ClaimError ClaimDecision) :=
  Machine.trace (fun s call => (s.attempt call).2) (fun s call => [(s.attempt call).1]) store calls

def emptyMemory : ClaimStore := memory ∅

def emptyDirectory : ClaimStore := file []

/-- The first call of a valid id wins and every later one finds it claimed. -/
def Decides (store : ClaimStore) (calls : List (String × OwnerId)) : Prop :=
  ∀ before callId owner rest, calls = before ++ (callId, owner) :: rest →
    validateCallId callId = .ok () → ((store.after before).attempt (callId, owner)).1 =
      .ok (if callId ∈ before.map Prod.fst then .alreadyClaimed else .won)

/-- A claim is that of the id which was called, and of no other one. -/
structure FirstWins (store : ClaimStore) (calls : List (String × OwnerId)) : Prop where
  decides : store.Decides calls
  claimed_iff : ∀ callId, (store.after calls).claimed callId = true ↔
    validateCallId callId = .ok () ∧ callId ∈ calls.map Prod.fst

structure StoresAgree (calls : List (String × OwnerId)) : Prop where
  same : emptyDirectory.answers calls = emptyMemory.answers calls
  memory : emptyMemory.FirstWins calls
  directory : emptyDirectory.FirstWins calls

/-! ### One call -/

variable {store : ClaimStore} {call : String × OwnerId} {calls : List (String × OwnerId)}

/-- Every name is short enough, or there are no names. -/
def InReach (store : ClaimStore) (callId : String) : Prop :=
  HasFile callId ∨ ∃ claims, store = .memory claims

/-- The store with one more claim. -/
def mark (store : ClaimStore) (callId : String) (owner : OwnerId) : ClaimStore :=
  match store with
  | .memory claims => .memory (claims.insert callId owner)
  | .file root => .file (hexName callId :: root)

theorem claimed_mark (store : ClaimStore) (callId other : String) (owner : OwnerId) :
    (store.mark callId owner).claimed other = true ↔
      store.claimed other = true ∨ other = callId := by
  cases store with
  | memory claims =>
      show ((claims.insert callId owner).lookup other).isSome = true ↔
        (claims.lookup other).isSome = true ∨ other = callId
      rw [Map.lookup_insert_if]
      split
      · next heq => exact iff_of_true rfl (.inr heq)
      · next hne => exact (or_iff_left hne).symm
  | file root =>
      show decide (hexName other ∈ hexName callId :: root) = true ↔
        decide (hexName other ∈ root) = true ∨ other = callId
      rw [decide_eq_true_eq, decide_eq_true_eq, List.mem_cons, or_comm]
      exact or_congr_right ⟨hexName_injective, congrArg hexName⟩

theorem attempt_invalid (h : validateCallId call.1 = .error .invalidCallId) :
    store.attempt call = (.error .invalidCallId, store) := by
  unfold attempt tryClaim
  rw [h]

theorem attempt_valid (h : validateCallId call.1 = .ok ()) (hreach : store.InReach call.1) :
    store.attempt call = if store.claimed call.1 = true then (.ok .alreadyClaimed, store)
      else (.ok .won, store.mark call.1 call.2) := by
  unfold attempt tryClaim
  rw [h]
  cases store with
  | memory claims =>
      simp only [claimed, mark]
      split
      · next hlookup => simp [hlookup]
      · next hlookup => simp [hlookup]
  | file root =>
      have hopen : (fileSystem call.1).openError = none := by
        rcases hreach with hfile | ⟨claims, hmemory⟩
        · exact openError_eq_none_iff.mpr (hfile h)
        · cases hmemory
      simp only [hopen, claimed, mark, decide_eq_true_eq]
      rfl

/-- Claims are added by valid calls only. -/
theorem claimed_attempt (hreach : store.InReach call.1) (other : String) :
    (store.attempt call).2.claimed other = true ↔
      store.claimed other = true ∨ validateCallId other = .ok () ∧ other = call.1 := by
  rcases validateCallId_cases call.1 with hvalid | hinvalid
  · have hother : other = call.1 ↔ validateCallId other = .ok () ∧ other = call.1 :=
      ⟨fun h => ⟨h ▸ hvalid, h⟩, fun h => h.2⟩
    rw [attempt_valid hvalid hreach, ← hother]
    split
    · next hclaimed => exact (or_iff_left_of_imp fun h => h ▸ hclaimed).symm
    · exact claimed_mark _ _ _ _
  · rw [attempt_invalid hinvalid]
    refine (or_iff_left fun h => ?_).symm
    rw [h.2, hinvalid] at h
    cases h.1

/-- A directory refuses a name that is too long. -/
theorem attempt_long {root : List String} (hvalid : validateCallId call.1 = .ok ())
    (hlong : 127 < call.1.utf8ByteSize) :
    (attempt (.file root) call).1 = .error (.io "File name too long (os error 36)") := by
  have hname : maxNameBytes < (hexName call.1).utf8ByteSize := by
    rw [utf8ByteSize_hexName, maxNameBytes]
    omega
  have hopen : (fileSystem call.1).openError = some "File name too long (os error 36)" :=
    if_pos hname
  unfold attempt tryClaim
  rw [hvalid]
  simp only [hopen]

/-! ### Runs -/

theorem after_concat (store : ClaimStore) (calls : List (String × OwnerId))
    (call : String × OwnerId) :
    store.after (calls ++ [call]) = ((store.after calls).attempt call).2 := by
  simp [after]

theorem answers_concat (store : ClaimStore) (calls : List (String × OwnerId))
    (call : String × OwnerId) : store.answers (calls ++ [call]) =
      store.answers calls ++ [((store.after calls).attempt call).1] := by
  rw [answers, Machine.trace_append]
  rfl

/-- A directory remains one, and a map does. -/
theorem after_file (root : List String) (calls : List (String × OwnerId)) :
    ∃ root', after (.file root) calls = .file root' := by
  induction calls using List.reverseRecOn with
  | nil => exact ⟨root, rfl⟩
  | append_singleton calls call ih =>
      obtain ⟨root', hroot⟩ := ih
      rw [after_concat, hroot]
      unfold attempt tryClaim
      cases validateCallId call.1 with
      | error e => exact ⟨root', rfl⟩
      | ok _ =>
          dsimp only
          split
          · exact ⟨root', rfl⟩
          · split
            · exact ⟨root', rfl⟩
            · exact ⟨_, rfl⟩

theorem after_memory (claims : Map String OwnerId) (calls : List (String × OwnerId)) :
    ∃ claims', after (.memory claims) calls = .memory claims' := by
  induction calls using List.reverseRecOn with
  | nil => exact ⟨claims, rfl⟩
  | append_singleton calls call ih =>
      obtain ⟨claims', hclaims⟩ := ih
      rw [after_concat, hclaims]
      unfold attempt tryClaim
      cases validateCallId call.1 with
      | error e => exact ⟨claims', rfl⟩
      | ok _ =>
          dsimp only
          split
          · exact ⟨claims', rfl⟩
          · exact ⟨_, rfl⟩

/-- After calls in reach the claims are those of the valid ids that were called. -/
theorem claimed_after (hempty : ∀ callId, store.claimed callId = false)
    (hreach : ∀ before call rest, calls = before ++ call :: rest →
      (store.after before).InReach call.1) (callId : String) :
    (store.after calls).claimed callId = true ↔
      validateCallId callId = .ok () ∧ callId ∈ calls.map Prod.fst := by
  induction calls using List.reverseRecOn with
  | nil =>
      rw [after, List.foldl_nil, hempty]
      exact iff_of_false Bool.false_ne_true (by simp)
  | append_singleton calls call ih =>
      have hbefore := ih fun before c rest hsplit =>
        hreach before c (rest ++ [call]) (by rw [hsplit]; simp)
      rw [after_concat, claimed_attempt (hreach calls call [] rfl), hbefore, List.map_append,
        List.map_singleton, List.mem_append, List.mem_singleton, and_or_left]

theorem firstWins (hempty : ∀ callId, store.claimed callId = false)
    (hreach : ∀ before call rest, calls = before ++ call :: rest →
      (store.after before).InReach call.1) : store.FirstWins calls := by
  refine ⟨?_, claimed_after hempty hreach⟩
  rintro before callId owner rest rfl hvalid
  have hclaimed : (store.after before).claimed callId = true ↔ callId ∈ before.map Prod.fst := by
    rw [claimed_after hempty fun b c r hsplit => hreach b c (r ++ (callId, owner) :: rest)
      (by rw [hsplit]; simp), and_iff_right hvalid]
  rw [attempt_valid hvalid (hreach before (callId, owner) rest rfl)]
  simp only [hclaimed]
  split <;> rfl

theorem firstWins_memory (calls : List (String × OwnerId)) : emptyMemory.FirstWins calls :=
  firstWins (fun callId => by simp [emptyMemory, claimed]) fun before _ _ _ =>
    .inr (after_memory ∅ before)

/-- Stores in which the first one wins answer alike. -/
theorem Decides.answers_eq {store' : ClaimStore} (h : store.Decides calls)
    (h' : store'.Decides calls) : store.answers calls = store'.answers calls := by
  induction calls using List.reverseRecOn with
  | nil => rfl
  | append_singleton calls call ih =>
      have hbegins : ∀ {s : ClaimStore}, s.Decides (calls ++ [call]) → s.Decides calls :=
        fun hs before callId owner rest hsplit =>
          hs before callId owner (rest ++ [call]) (by rw [hsplit]; simp)
      have hlast : ((store.after calls).attempt call).1 =
          ((store'.after calls).attempt call).1 := by
        rcases validateCallId_cases call.1 with hvalid | hinvalid
        · rw [h calls call.1 call.2 [] rfl hvalid, h' calls call.1 call.2 [] rfl hvalid]
        · rw [attempt_invalid hinvalid, attempt_invalid hinvalid]
      rw [answers_concat, answers_concat, ih (hbegins h) (hbegins h'), hlast]

/-- The stores agree exactly on calls whose valid ids have at most 127 bytes. -/
theorem storesAgree_iff (calls : List (String × OwnerId)) :
    StoresAgree calls ↔ ∀ callId ∈ calls.map Prod.fst, HasFile callId := by
  constructor
  · intro h callId hmem hvalid
    by_contra hlong
    obtain ⟨⟨callId', owner⟩, hcall, rfl⟩ := List.mem_map.mp hmem
    obtain ⟨before, rest, hsplit⟩ := List.append_of_mem hcall
    -- the answer cannot be both a decision and the error
    have hdecides := h.directory.decides before callId' owner rest hsplit hvalid
    obtain ⟨root, hroot⟩ := after_file [] before
    rw [emptyDirectory, hroot, attempt_long hvalid (not_le.mp hlong)] at hdecides
    cases hdecides
  · intro h
    have hdirectory : emptyDirectory.FirstWins calls :=
      firstWins (fun callId => by simp [emptyDirectory, claimed]) fun before call rest hsplit =>
        .inl (h call.1 (List.mem_map_of_mem (by rw [hsplit]; simp)))
    exact ⟨hdirectory.decides.answers_eq (firstWins_memory calls).decides,
      firstWins_memory calls, hdirectory⟩

/-! ### A valid id without a file -/

def longCallId : String := String.ofList (List.replicate 128 'c')

theorem gatewayOwner_fits :
    "gateway-1" ≠ "" ∧ "gateway-1".utf8ByteSize ≤ maxCallIdBytes := by decide

def gatewayOwner : OwnerId := ⟨"gateway-1", gatewayOwner_fits.1, gatewayOwner_fits.2⟩

theorem utf8ByteSize_longCallId : longCallId.utf8ByteSize = 128 := by
  have hascii : ∀ c ∈ List.replicate 128 'c', c.utf8Size = 1 := by
    intro c hc
    rw [List.eq_of_mem_replicate hc]
    decide
  exact (utf8ByteSize_ofList_of_ascii hascii).trans List.length_replicate

/-- An id of 128 bytes is valid: in memory its claim is won, and in the directory it fails. -/
theorem longCallId_disagrees :
    (emptyMemory.attempt (longCallId, gatewayOwner)).1 = .ok .won ∧
      (emptyDirectory.attempt (longCallId, gatewayOwner)).1 =
        .error (.io "File name too long (os error 36)") ∧
      ¬ StoresAgree [(longCallId, gatewayOwner)] := by
  have hvalid : validateCallId longCallId = .ok () := by
    unfold validateCallId
    refine if_neg fun h => ?_
    rcases h with hempty | hlong
    · have hsize := congrArg String.utf8ByteSize hempty
      rw [utf8ByteSize_longCallId] at hsize
      cases hsize
    · rw [utf8ByteSize_longCallId, maxCallIdBytes] at hlong
      omega
  have hwon := (firstWins_memory [(longCallId, gatewayOwner)]).decides [] longCallId
    gatewayOwner [] rfl hvalid
  have hlong : 127 < longCallId.utf8ByteSize := by
    rw [utf8ByteSize_longCallId]
    omega
  have hfails : (emptyDirectory.attempt (longCallId, gatewayOwner)).1 =
      .error (.io "File name too long (os error 36)") := attempt_long hvalid hlong
  refine ⟨hwon, hfails, fun h => ?_⟩
  have hdecides := h.directory.decides [] longCallId gatewayOwner [] rfl hvalid
  exact absurd (hfails.symm.trans hdecides) (by simp)

end ClaimStore

end DdsOrchestrator.McpGateway
