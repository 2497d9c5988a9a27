import DdsOrchestrator.Lib.Masking
import Mathlib.Data.Finset.Sort
import Mathlib.Data.String.Basic

/-!
The redaction of texts. The secrets are replaced by a mask one after the other, in the order
of the set, and each on the text that the ones before have left. A secret that begins with
another one comes behind it, so that its own end stays to be read.
-/

namespace DdsOrchestrator.ControlPanel

open Masking

/-- Every occurrence of `pat`, from left to right. -/
def replaceAll (out pat new : String) : String :=
  .ofList (Masking.replace pat.toList new.toList out.toList)

/-- Secrets of less than three bytes are left alone. -/
def redact (text : String) (secrets : Finset String) : String :=
  (secrets.sort (· ≤ ·)).foldl
    (fun out secret => if 3 ≤ secret.utf8ByteSize then replaceAll out secret "******" else out)
    text

/-! ### What is asked of it -/

/-- A secret of at least three bytes is at the position. -/
def Found (secrets : Finset String) (text secret : String) (i : ℕ) : Prop :=
  secret ∈ secrets ∧ 3 ≤ secret.utf8ByteSize ∧ OccursAt secret.toList text.toList i

/-- The output is the text with disjoint segments replaced, and every occurrence of a secret
is within them. -/
def Redacts (secrets : Finset String) (text out : String) : Prop :=
  ∃ ps : List (Piece Char), origin ps = text.toList ∧ shown "******".toList ps = out.toList ∧
    (∀ segment, .masked segment ∈ ps → segment ≠ []) ∧
    ∀ secret i, Found secrets text secret i →
      ∀ position, i ≤ position → position < i + secret.toList.length → Covered ps position

/-- The occurrences that no other one is in the way of, among those met before them: of a
secret that is less, or of the same one further to the left. -/
def FirstMet (secrets : Finset String) (text : String) (F : String → ℕ → Prop) : Prop :=
  ∀ secret i, F secret i ↔ Found secrets text secret i ∧
    ∀ other j, F other j → other < secret ∨ (other = secret ∧ j < i) →
      Apart other.toList j secret.toList i

/-- Every position of an occurrence is one of an occurrence that is met first. -/
def MetEverywhere (secrets : Finset String) (text : String) : Prop :=
  ∃ F, FirstMet secrets text F ∧ ∀ secret i, Found secrets text secret i →
    ∀ position, i ≤ position → position < i + secret.toList.length →
      ∃ other j, F other j ∧ j ≤ position ∧ position < j + other.toList.length

/-- No secret is found across the end of a mask, wherever in this text lesser ones are
masked. -/
def StarsApart (secrets : Finset String) (text : String) : Prop :=
  ∀ secret ∈ secrets, 3 ≤ secret.utf8ByteSize → ∀ ps : List (Piece Char),
    origin ps = text.toList →
    (∀ segment, .masked segment ∈ ps → ∃ other ∈ secrets, 3 ≤ other.utf8ByteSize ∧
      other < secret ∧ segment = other.toList) →
      Clear "******".toList secret.toList ps

/-! ### The secrets as patterns -/

def patterns (secrets : Finset String) : List (List Char) :=
  ((secrets.sort (· ≤ ·)).filter (3 ≤ ·.utf8ByteSize)).map String.toList

/-- The order of the set. -/
def earlier (p q : List Char) : Prop := String.ofList p < String.ofList q

section

variable {secrets : Finset String} {text : String} {pat : List Char} {secret : String}

theorem toList_mem_patterns :
    secret.toList ∈ patterns secrets ↔ secret ∈ secrets ∧ 3 ≤ secret.utf8ByteSize := by
  simp [patterns, String.toList_inj]

theorem patterns_ne_nil : ∀ p ∈ patterns secrets, p ≠ [] := by
  intro p hp hnil
  have hempty : "".toList ∈ patterns secrets := by rwa [hnil] at hp
  exact absurd (toList_mem_patterns.mp hempty).2 (by decide)

theorem earlier_toList {s t : String} : earlier s.toList t.toList ↔ s < t := by
  rw [earlier, String.ofList_toList, String.ofList_toList]

theorem earlier_asymm (p q : List Char) (h : earlier p q) : ¬ earlier q p := lt_asymm h

theorem pairwise_patterns : (patterns secrets).Pairwise earlier := by
  rw [patterns, List.pairwise_map]
  refine List.Pairwise.imp (fun h => earlier_toList.mpr h) (List.Pairwise.filter _ ?_)
  exact (Finset.sortedLT_sort secrets).pairwise

theorem redact_toList : (redact text secrets).toList =
    (patterns secrets).foldl (fun out pat => Masking.replace pat (List.replicate 6 '*') out)
      text.toList := by
  have hfold : ∀ (l : List String) (out : String),
      (l.foldl (fun out secret =>
        if 3 ≤ secret.utf8ByteSize then replaceAll out secret "******" else out) out).toList =
      ((l.filter (3 ≤ ·.utf8ByteSize)).map String.toList).foldl
        (fun out pat => Masking.replace pat (List.replicate 6 '*') out) out.toList := by
    intro l
    induction l with
    | nil =>
        intro out
        rfl
    | cons secret l ih =>
        intro out
        rw [List.foldl_cons, ih]
        by_cases hlong : 3 ≤ secret.utf8ByteSize
        · rw [if_pos hlong, List.filter_cons_of_pos (by simpa using hlong), List.map_cons,
            List.foldl_cons, replaceAll, String.toList_ofList]
          rfl
        · rw [if_neg hlong, List.filter_cons_of_neg (by simpa using hlong)]
  exact hfold _ text

/-! ### What is masked -/

/-- The text as the passes leave it. -/
def masks (secrets : Finset String) (text : String) : List (Piece Char) :=
  passes (patterns secrets) (keeps text.toList)

theorem metFirst_iff {F : List Char → ℕ → Prop} :
    MetFirst earlier (patterns secrets) text.toList F ↔
      FirstMet secrets text fun secret i => F secret.toList i := by
  have hstrings : ∀ P : List Char → Prop, (∀ p, P p) ↔ ∀ s : String, P s.toList := by
    intro P
    constructor
    · intro h s
      exact h s.toList
    · intro h p
      have hp := h (String.ofList p)
      rwa [String.toList_ofList] at hp
  rw [MetFirst, hstrings]
  refine forall_congr' fun secret => forall_congr' fun i => ?_
  rw [hstrings, toList_mem_patterns, Found, and_assoc, and_assoc, and_assoc]
  simp only [earlier_toList, String.toList_inj]

theorem firstMet_masks (secrets : Finset String) (text : String) :
    FirstMet secrets text fun secret i => MaskedAt (masks secrets text) secret.toList i :=
  metFirst_iff.mp (metFirst_maskedAt patterns_ne_nil pairwise_patterns earlier_asymm _)

theorem FirstMet.iff_masked {F : String → ℕ → Prop} (hF : FirstMet secrets text F)
    (secret : String) (i : ℕ) : F secret i ↔ MaskedAt (masks secrets text) secret.toList i := by
  have hlists : MetFirst earlier (patterns secrets) text.toList
      fun p i => F (String.ofList p) i := by
    rw [metFirst_iff]
    simpa only [String.ofList_toList] using hF
  have hsame := hlists.unique pairwise_patterns earlier_asymm
    (metFirst_maskedAt patterns_ne_nil pairwise_patterns earlier_asymm text.toList)
    secret.toList i
  rwa [String.ofList_toList] at hsame

theorem covered_masks_iff {position : ℕ} : Covered (masks secrets text) position ↔
    ∃ secret i, MaskedAt (masks secrets text) (String.toList secret) i ∧ i ≤ position ∧
      position < i + secret.toList.length := by
  constructor
  · rintro ⟨segment, i, hmasked, hle, hlt⟩
    exact ⟨String.ofList segment, i, by rwa [String.toList_ofList], hle,
      by rwa [String.toList_ofList]⟩
  · rintro ⟨secret, i, hmasked, hle, hlt⟩
    exact ⟨secret.toList, i, hmasked, hle, hlt⟩

/-- The occurrences met first cover all others exactly if the masks do. -/
theorem metEverywhere_iff : MetEverywhere secrets text ↔
    ∀ secret i, Found secrets text secret i → ∀ position, i ≤ position →
      position < i + secret.toList.length → Covered (masks secrets text) position := by
  constructor
  · rintro ⟨F, hF, hcover⟩ secret i hfound position hle hlt
    obtain ⟨other, j, hother, hspan⟩ := hcover secret i hfound position hle hlt
    exact covered_masks_iff.mpr ⟨other, j, (hF.iff_masked other j).mp hother, hspan⟩
  · intro hcover
    refine ⟨_, firstMet_masks secrets text, fun secret i hfound position hle hlt => ?_⟩
    exact covered_masks_iff.mp (hcover secret i hfound position hle hlt)

theorem origin_masks : origin (masks secrets text) = text.toList := by
  rw [masks, origin_passes patterns_ne_nil, origin_keeps]

theorem unspoilt_of_starsApart (h : StarsApart secrets text) :
    Unspoilt "******".toList (patterns secrets) text.toList := by
  intro before pat after hsplit ps horigin hmasked
  have hpat : pat ∈ patterns secrets := by simp [hsplit]
  obtain ⟨secret, rfl⟩ : ∃ secret : String, pat = secret.toList :=
    ⟨String.ofList pat, (String.toList_ofList).symm⟩
  obtain ⟨hmem, hsize⟩ := toList_mem_patterns.mp hpat
  refine h secret hmem hsize ps horigin fun segment hsegment => ?_
  have hin := hmasked segment hsegment
  have hbefore : segment ∈ patterns secrets := by
    rw [hsplit]
    exact List.mem_append_left _ hin
  have hless := (earlier_iff_mem pairwise_patterns earlier_asymm hsplit hbefore).mpr hin
  obtain ⟨other, rfl⟩ : ∃ other : String, segment = other.toList :=
    ⟨String.ofList segment, (String.toList_ofList).symm⟩
  obtain ⟨hmem', hsize'⟩ := toList_mem_patterns.mp hbefore
  exact ⟨other, hmem', hsize', earlier_toList.mp hless, rfl⟩

theorem shown_masks (h : StarsApart secrets text) :
    shown "******".toList (masks secrets text) = (redact text secrets).toList := by
  rw [redact_toList]
  exact shown_passes patterns_ne_nil (by decide) (unspoilt_of_starsApart h)

end

/-- Redaction covers every secret where the occurrences that are met first do; without stars
in the secrets only there. -/
theorem redact_covers (secrets : Finset String) (text : String) :
    (StarsApart secrets text ∧ MetEverywhere secrets text →
      Redacts secrets text (redact text secrets)) ∧
    ((∀ secret ∈ secrets, 3 ≤ secret.utf8ByteSize → '*' ∉ secret.toList) →
      (Redacts secrets text (redact text secrets) ↔ MetEverywhere secrets text)) := by
  have hcovers : StarsApart secrets text ∧ MetEverywhere secrets text →
      Redacts secrets text (redact text secrets) := by
    rintro ⟨hstars, hmet⟩
    exact ⟨masks secrets text, origin_masks, shown_masks hstars,
      fun segment h => ne_nil_of_masked patterns_ne_nil h, metEverywhere_iff.mp hmet⟩
  refine ⟨hcovers, fun hplain => ?_⟩
  have hstars : StarsApart secrets text := by
    intro secret hmem hsize ps _ _
    have hinert : Inert '*' 6 secret.toList := .of_not_mem (hplain secret hmem hsize) (by decide)
    exact hinert.clear (patterns_ne_nil _ (toList_mem_patterns.mpr ⟨hmem, hsize⟩)) ps
  refine ⟨?_, fun hmet => hcovers ⟨hstars, hmet⟩⟩
  rintro ⟨ps, horigin, hshown, -, hcover⟩
  rw [metEverywhere_iff]
  intro secret i hfound position hle hlt
  obtain ⟨j, rfl⟩ := Nat.exists_eq_add_of_le hle
  -- what is at the position is of the secret, and no star
  have hchar : text.toList[i + j]? = some secret.toList[j] := by
    rw [hfound.2.2.getElem? (by omega), List.getElem?_eq_getElem]
  have hplace : i + j < text.toList.length := (List.getElem?_eq_some_iff.mp hchar).1
  refine covered_of_shown_eq (a := '*') (n := 6) (origin_masks.trans horigin.symm)
    ((shown_masks hstars).trans hshown.symm) ?_ (by rwa [origin_masks]) ?_
    (hcover secret i hfound _ hle hlt)
  · intro k hk
    obtain ⟨other, i', hmasked, hle', hlt'⟩ := covered_masks_iff.mp hk
    have hother := ((firstMet_masks secrets text other i').mp hmasked).1
    exact hcover other i' hother k hle' hlt'
  · rw [origin_masks, hchar]
    intro hstar
    refine hplain secret hfound.1 hfound.2.1 ?_
    rw [← Option.some.inj hstar]
    exact List.getElem_mem _

/-- The secret is covered, though another one ends with a star: no mask of this text can be
taken for the end of that. -/
theorem redact_covers_star :
    Redacts {"abc", "zz*"} "abc" (redact "abc" {"abc", "zz*"}) := by
  have hsecret : ∀ secret i, Found {"abc", "zz*"} "abc" secret i → secret = "abc" ∧ i = 0 := by
    rintro secret i ⟨hmem, -, hocc⟩
    have hlen := hocc.length_le
    rcases Finset.mem_insert.mp hmem with rfl | hmem
    · simp at hlen
      exact ⟨rfl, by omega⟩
    · obtain rfl := Finset.mem_singleton.mp hmem
      simp at hlen
      obtain rfl : i = 0 := by omega
      have hprefix : "zz*".toList <+: "abc".toList := hocc
      exact absurd hprefix (by decide)
  have hfound : Found {"abc", "zz*"} "abc" "abc" 0 :=
    ⟨by simp, by decide, List.prefix_refl _⟩
  refine (redact_covers {"abc", "zz*"} "abc").1 ⟨?_, fun secret i => secret = "abc" ∧ i = 0, ?_, ?_⟩
  · intro secret hmem _ ps horigin _
    rcases Finset.mem_insert.mp hmem with rfl | hmem
    · have hinert : Inert '*' 6 "abc".toList := .of_not_mem (by decide) (by decide)
      exact hinert.clear (by decide) ps
    · obtain rfl := Finset.mem_singleton.mp hmem
      intro i hocc
      have hz : 'z' ∈ shown "******".toList ps :=
        List.mem_of_mem_drop (hocc.subset (by decide : 'z' ∈ "zz*".toList))
      rcases mem_of_mem_shown hz with hmask | htext
      · exact absurd hmask (by decide)
      · rw [horigin] at htext
        exact absurd htext (by decide)
  · intro secret i
    constructor
    · rintro ⟨rfl, rfl⟩
      refine ⟨hfound, ?_⟩
      rintro other j ⟨rfl, rfl⟩ (hless | ⟨-, hlt⟩)
      · exact absurd hless (lt_irrefl _)
      · exact absurd hlt (Nat.lt_irrefl _)
    · exact fun h => hsecret secret i h.1
  · intro secret i h position hle hlt
    obtain ⟨rfl, rfl⟩ := hsecret secret i h
    exact ⟨"abc", 0, ⟨rfl, rfl⟩, hle, hlt⟩

/-- A secret and one that begins with it: the end of the longer one can be read. -/
theorem longer_secret_is_read :
    ¬ ∀ (secrets : Finset String) (text : String),
      Redacts secrets text (redact text secrets) := by
  intro h
  obtain ⟨ps, horigin, hshown, -, hcover⟩ := h {"abc", "abcdef"} "abcdef"
  have hsort : Finset.sort ({"abc", "abcdef"} : Finset String) (· ≤ ·) = ["abc", "abcdef"] := by
    rw [Finset.sort_insert, Finset.sort_singleton]
    · decide
    · decide
  have hout : (redact "abcdef" {"abc", "abcdef"}).toList = "******def".toList := by
    rw [redact, hsort]
    decide
  have hfound : Found {"abc", "abcdef"} "abcdef" "abcdef" 0 :=
    ⟨by simp, by decide, List.prefix_refl _⟩
  -- nothing but masks is left, and they have no letters
  have hnone : plain '*' ps = [] := by
    rw [List.eq_nil_iff_forall_not_mem]
    intro k hk
    obtain ⟨hlt, -, hopen⟩ := mem_plain.mp hk
    rw [horigin] at hlt
    exact hopen (hcover _ _ hfound k (Nat.zero_le _) hlt)
  have hlen : (plain '*' ps).length =
      ((shown (List.replicate 6 '*') ps).filter (· ≠ '*')).length := length_plain
  rw [hnone] at hlen
  have hshown' : shown (List.replicate 6 '*') ps = "******def".toList := hshown.trans hout
  rw [hshown'] at hlen
  exact absurd hlen (by decide)

end DdsOrchestrator.ControlPanel
