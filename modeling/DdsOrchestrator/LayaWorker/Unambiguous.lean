import DdsOrchestrator.LayaWorker.Digest

/-!
The encoding loses nothing. Of two values of one type the bytes are the same exactly if the
values are, up to the sign of zero, and where the bytes of a value end is seen from them alone.
-/

namespace DdsOrchestrator.LayaWorker

open PrefixCode

/-! ### Types -/

/-- The types of a contract. A struct is named. -/
inductive Ty where
  | string
  | int (t : IntType)
  | bool
  | f64
  | enum (enum : String)
  | seq (elem : Ty)
  | struct (struct : String)

/-- A value has a type, where `fieldType` says of which type the fields of the structs are. -/
inductive HasType (fieldType : String → String → Ty) : TypedValue → Ty → Prop
  | string (v : String) : HasType fieldType (.string v) .string
  | int (t : IntType) (v : Int) : HasType fieldType (.int t v) (.int t)
  | bool (v : Bool) : HasType fieldType (.bool v) .bool
  | f64 (v : Double) : HasType fieldType (.f64 v) .f64
  | enum (enum v : String) : HasType fieldType (.enum enum v) (.enum enum)
  | seq {v : List TypedValue} {elem : Ty} (items : ∀ x ∈ v, HasType fieldType x elem) :
      HasType fieldType (.seq v) (.seq elem)
  | struct {struct : String} {fields : List String} {v : List (String × TypedValue)}
      (declared : structFields.lookup struct = some fields) (keys : (v.map (·.1)).Perm fields)
      (entries : ∀ e ∈ v, HasType fieldType e.2 (fieldType struct e.1)) :
      HasType fieldType (.struct struct v) (.struct struct)

/-- Equal up to the sign of zero and the order of a dict. -/
inductive Same : TypedValue → TypedValue → Prop
  | string (v : String) : Same (.string v) (.string v)
  | int (t : IntType) (v : Int) : Same (.int t v) (.int t v)
  | bool (v : Bool) : Same (.bool v) (.bool v)
  | f64 {v w : Double} (equals : v.Equals w) : Same (.f64 v) (.f64 w)
  | enum (enum v : String) : Same (.enum enum v) (.enum enum v)
  | seq {v w : List TypedValue} (length : v.length = w.length)
      (items : ∀ x y, (x, y) ∈ v.zip w → Same x y) : Same (.seq v) (.seq w)
  | struct {struct : String} {v w : List (String × TypedValue)}
      (keys : ∀ fld, (v.lookup fld).isSome = (w.lookup fld).isSome)
      (entries : ∀ fld x y, v.lookup fld = some x → w.lookup fld = some y → Same x y) :
      Same (.struct struct v) (.struct struct w)

/-! ### The parts of a value -/

theorem length_pack {t : IntType} {v : Int} {p : List UInt8} (h : pack t v = some p) :
    p.length = t.width := by
  unfold pack at h
  split at h
  · cases h
    exact length_bigEndian _ _
  · cases h

theorem pack_inj {t : IntType} {v w : Int} {p : List UInt8} (hv : pack t v = some p)
    (hw : pack t w = some p) : v = w := by
  unfold pack at hv hw
  split at hv
  · next hvmem =>
      split at hw
      · next hwmem =>
          exact bigEndian_emod_inj hvmem hwmem (Option.some.inj (hv.trans hw.symm))
      · cases hw
  · cases hv

theorem delimits_pack (t : IntType) (v w : Int) : Delimits (v = w) (pack t v) (pack t w) := by
  apply Delimits.of_length
  · intro p q hp hq
    rw [length_pack hp, length_pack hq]
  · intro p hp hq
    exact pack_inj hp hq

theorem utf8_inj {v w : String} (h : utf8 v = utf8 w) : v = w :=
  String.toByteArray_inj.mp (ByteArray.ext (Array.toList_inj.mp h))

theorem delimits_string (v w : String) :
    Delimits (v = w) (encodeTyped (.string v)) (encodeTyped (.string w)) := by
  rw [encodeTyped, encodeTyped]
  have htext : ((utf8 v).length : Int) = (utf8 w).length →
      Delimits (v = w) (some (utf8 v)) (some (utf8 w)) := by
    intro hlength
    apply Delimits.of_length
    · rintro p q ⟨⟩ ⟨⟩
      exact Int.ofNat.inj hlength
    · rintro p hv ⟨⟩
      exact utf8_inj (Option.some.inj hv)
  exact ((delimits_pack .u32 _ _).append htext).mono And.right

theorem bool_byte_inj : ∀ {v w : Bool},
    (if v then 1 else 0 : UInt8) = (if w then 1 else 0) → v = w := by
  decide

theorem Double.normalized_eq_iff {x y : Double} : x.normalized = y.normalized ↔ x.Equals y := by
  -- A double that is not zero has other bits than zero.
  have hnonzero : ∀ z : Double, z.isZero = false → z.bits ≠ 0 := by
    rintro z hz hbits
    rw [isZero, hbits] at hz
    cases hz
  unfold normalized Equals
  cases hx : x.isZero with
  | true =>
      cases hy : y.isZero with
      | true => simp
      | false =>
          constructor
          · intro hbits
            exact absurd hbits.symm (hnonzero y hy)
          · rintro (rfl | ⟨-, hzero⟩)
            · cases hx.symm.trans hy
            · cases hzero
  | false =>
      cases hy : y.isZero with
      | true =>
          constructor
          · intro hbits
            exact absurd hbits (hnonzero x hx)
          · rintro (rfl | ⟨hzero, -⟩)
            · cases hx.symm.trans hy
            · cases hzero
      | false =>
          constructor
          · intro hbits
            exact .inl (congrArg Double.mk hbits)
          · rintro (rfl | ⟨hzero, -⟩)
            · rfl
            · cases hzero

theorem packF64_eq_some {x : Double} {p : List UInt8} :
    packF64 x = some p ↔ x.isFinite ∧ bigEndian 8 x.normalized.toNat = p := by
  unfold packF64
  split
  · next h => simp [h]
  · next h => simp [h]

theorem delimits_f64 (x y : Double) : Delimits (x.Equals y) (packF64 x) (packF64 y) := by
  apply Delimits.of_length
  · intro p q hp hq
    obtain ⟨-, rfl⟩ := packF64_eq_some.mp hp
    obtain ⟨-, rfl⟩ := packF64_eq_some.mp hq
    rw [length_bigEndian, length_bigEndian]
  · intro p hp hq
    obtain ⟨-, hx⟩ := packF64_eq_some.mp hp
    obtain ⟨-, hy⟩ := packF64_eq_some.mp hq
    have hnat := bigEndian_inj x.normalized.toNat_lt y.normalized.toNat_lt (hx.trans hy.symm)
    exact Double.normalized_eq_iff.mp (UInt64.toNat_inj.mp hnat)

theorem ordinal_inj {enum v w : String} {i : ℕ} (hv : ordinal enum v = some i)
    (hw : ordinal enum w = some i) : v = w := by
  obtain ⟨literals, hliterals, hv⟩ := Option.bind_eq_some_iff.mp hv
  obtain ⟨literals', hliterals', hw⟩ := Option.bind_eq_some_iff.mp hw
  cases hliterals.symm.trans hliterals'
  obtain ⟨_, hvat, -⟩ := List.idxOf?_eq_some_iff.mp hv
  obtain ⟨_, hwat, -⟩ := List.idxOf?_eq_some_iff.mp hw
  exact hvat.symm.trans hwat

theorem delimits_enum (enum v w : String) :
    Delimits (v = w) (encodeTyped (.enum enum v)) (encodeTyped (.enum enum w)) := by
  rw [encodeTyped, encodeTyped]
  intro p q s t hp hq happend
  obtain ⟨i, hi, hp⟩ := Option.bind_eq_some_iff.mp hp
  obtain ⟨j, hj, hq⟩ := Option.bind_eq_some_iff.mp hq
  obtain ⟨hij, hrest⟩ := delimits_pack .u32 i j p q s t hp hq happend
  cases Int.ofNat.inj hij
  exact ⟨ordinal_inj hi hj, hrest⟩

theorem mem_of_lookup {α : Type} {v : List (String × α)} {fld : String} {x : α}
    (h : v.lookup fld = some x) : (fld, x) ∈ v := by
  obtain ⟨before, after, rfl, -⟩ := List.lookup_eq_some_iff.mp h
  exact List.mem_append_right before List.mem_cons_self

/-- Two dicts that have the keys of the struct have the same keys. -/
theorem isSome_lookup_iff {α : Type} {v : List (String × α)} {fields : List String}
    (keys : (v.map (·.1)).Perm fields) (fld : String) :
    (v.lookup fld).isSome = true ↔ fld ∈ fields := by
  rw [List.lookup_isSome_iff, ← keys.mem_iff, List.mem_map]
  constructor
  · rintro ⟨e, he, hkey⟩
    exact ⟨e, he, (eq_of_beq hkey).symm⟩
  · rintro ⟨e, he, rfl⟩
    exact ⟨e, he, BEq.rfl⟩

/-- What the two have in one field is the same. -/
def SameAt (v w : List (String × TypedValue)) (fld : String) : Prop :=
  ∀ x y, v.lookup fld = some x → w.lookup fld = some y → Same x y

theorem delimits_field {v w : List (String × TypedValue)} {fld : String}
    (h : ∀ x y, v.lookup fld = some x → w.lookup fld = some y →
      Delimits (Same x y) (encodeTyped x) (encodeTyped y)) :
    Delimits (SameAt v w fld) (encodeField v fld) (encodeField w fld) := by
  intro p q s t hp hq happend
  obtain ⟨x, hx, hp⟩ := Option.bind_eq_some_iff.mp hp
  obtain ⟨y, hy, hq⟩ := Option.bind_eq_some_iff.mp hq
  obtain ⟨hsame, hrest⟩ := h x y hx hy p q s t hp hq happend
  refine ⟨?_, hrest⟩
  intro x' y' hx' hy'
  cases hx.symm.trans hx'
  cases hy.symm.trans hy'
  exact hsame

/-! ### The whole value -/

variable {fieldType : String → String → Ty} {v w : TypedValue} {ty : Ty}

/-- By induction on the value. A struct has its fields one by one, and each has the same type
on both sides. -/
theorem HasType.delimits (hv : HasType fieldType v ty) (hw : HasType fieldType w ty) :
    Delimits (Same v w) (encodeTyped v) (encodeTyped w) := by
  induction hv generalizing w with
  | string v =>
      cases hw with
      | string w =>
          apply (delimits_string v w).mono
          rintro rfl
          exact .string v
  | int t v =>
      cases hw with
      | int t w =>
          rw [encodeTyped, encodeTyped]
          apply (delimits_pack t v w).mono
          rintro rfl
          exact .int t v
  | bool v =>
      cases hw with
      | bool w =>
          rw [encodeTyped, encodeTyped]
          apply Delimits.of_length
          · rintro p q ⟨⟩ ⟨⟩
            rfl
          · rintro p hp hq
            have hbyte := List.singleton_inj.mp (Option.some.inj (hp.trans hq.symm))
            cases bool_byte_inj hbyte
            exact .bool v
  | f64 v =>
      cases hw with
      | f64 w =>
          rw [encodeTyped, encodeTyped]
          exact (delimits_f64 v w).mono .f64
  | enum enum v =>
      cases hw with
      | enum enum w =>
          apply (delimits_enum enum v w).mono
          rintro rfl
          exact .enum enum v
  | @seq v elem items ih =>
      cases hw with
      | @seq w elem items' =>
          rw [encodeTyped_seq, encodeTyped_seq]
          have hitems : (v.length : Int) = w.length →
              Delimits (List.Forall₂ Same v w) (concat (v.map encodeTyped))
                (concat (w.map encodeTyped)) := by
            intro hlength
            apply Delimits.sequence (Int.ofNat.inj hlength)
            intro x hx y hy
            exact ih x hx (items' y hy)
          apply ((delimits_pack .u32 _ _).append hitems).mono
          rintro ⟨-, hsame⟩
          obtain ⟨hlength, hzip⟩ := List.forall₂_iff_zip.mp hsame
          exact .seq hlength fun x y hxy => hzip hxy
  | @struct struct fields v declared keys entries ih =>
      cases hw with
      | @struct struct fields' w declared' keys' entries' =>
          cases declared.symm.trans declared'
          rw [encodeTyped_struct, encodeTyped_struct, declared, Option.bind_some,
            Option.bind_some]
          have hfields : ∀ fld ∈ fields, Delimits (SameAt v w fld) (encodeField v fld)
              (encodeField w fld) := by
            intro fld _
            apply delimits_field
            intro x y hx hy
            exact ih (fld, x) (mem_of_lookup hx) (entries' (fld, y) (mem_of_lookup hy))
          apply (Delimits.fields hfields).mono
          intro hsame
          apply Same.struct
          · intro fld
            rw [Bool.eq_iff_iff, isSome_lookup_iff keys, isSome_lookup_iff keys']
          · intro fld x y hx hy
            have hmem : fld ∈ fields := by
              rw [← isSome_lookup_iff keys, hx]
              rfl
            exact hsame fld hmem x y hx hy

/-- With a field skipped the others still do not run into one another. -/
theorem HasType.preimage_inj {struct : String} {v w : List (String × TypedValue)}
    {skipField : Option String} {p : List UInt8}
    (hv : HasType fieldType (.struct struct v) ty) (hw : HasType fieldType (.struct struct w) ty)
    (hpv : preimage skipField (.struct struct v) = some p)
    (hpw : preimage skipField (.struct struct w) = some p) {fld : String}
    (hfld : skipField ≠ some fld) : SameAt v w fld := by
  cases hv with
  | @struct struct fields v declared keys entries =>
      cases hw with
      | @struct struct fields' w declared' keys' entries' =>
          cases declared.symm.trans declared'
          rw [preimage, declared, Option.bind_some] at hpv hpw
          have hfields : ∀ fld ∈ fields.filter fun fld => skipField != some fld,
              Delimits (SameAt v w fld) (encodeField v fld) (encodeField w fld) := by
            intro fld _
            apply delimits_field
            intro x y hx hy
            exact (entries (fld, x) (mem_of_lookup hx)).delimits
              (entries' (fld, y) (mem_of_lookup hy))
          have hsame := (Delimits.fields hfields).of_eq hpv hpw
          intro x y hx hy
          have hmem : fld ∈ fields := by
            rw [← isSome_lookup_iff keys, hx]
            rfl
          exact hsame fld (List.mem_filter.mpr ⟨hmem, bne_iff_ne.mpr hfld⟩) x y hx hy

/-! ### Values that are the same -/

theorem Double.Equals.packF64_eq {x y : Double} (h : x.Equals y) : packF64 x = packF64 y := by
  have hfinite : ∀ z : Double, z.isZero → z.isFinite := by
    intro z hz
    have hbits : z.bits.toNat % 2 ^ 63 = 0 := eq_of_beq hz
    apply bne_iff_ne.mpr
    omega
  rw [packF64, packF64, normalized_eq_iff.mpr h]
  obtain rfl | ⟨hx, hy⟩ := h
  · rfl
  · rw [hfinite x hx, hfinite y hy]

theorem Same.encodeTyped_eq (h : Same v w) : encodeTyped v = encodeTyped w := by
  induction h with
  | string v => rfl
  | int t v => rfl
  | bool v => rfl
  | enum enum v => rfl
  | f64 equals =>
      rw [encodeTyped, encodeTyped]
      exact equals.packF64_eq
  | @seq v w length items ih =>
      have hall : List.Forall₂ (fun x y => encodeTyped x = encodeTyped y) v w :=
        List.forall₂_iff_zip.mpr ⟨length, fun hxy => ih _ _ hxy⟩
      have hmap : v.map encodeTyped = w.map encodeTyped := by
        rw [← List.forall₂_eq_eq_eq, List.forall₂_map_left_iff, List.forall₂_map_right_iff]
        exact hall
      rw [encodeTyped_seq, encodeTyped_seq, length, hmap]
  | @struct struct v w keys entries ih =>
      have hfield : encodeField v = encodeField w := by
        funext fld
        have hkey := keys fld
        unfold encodeField
        cases hx : v.lookup fld with
        | none =>
            rw [hx, Option.isSome_none, eq_comm, Option.isSome_eq_false_iff,
              Option.isNone_iff_eq_none] at hkey
            rw [hkey]
        | some x =>
            rw [hx, Option.isSome_some, eq_comm] at hkey
            obtain ⟨y, hy⟩ := Option.isSome_iff_exists.mp hkey
            rw [hy, Option.bind_some, Option.bind_some]
            exact ih fld x y hx hy
      rw [encodeTyped_struct, encodeTyped_struct, hfield]

/-- Equal bytes stand for the same value. -/
theorem HasType.encodeTyped_eq_iff {p q : List UInt8} (hv : HasType fieldType v ty)
    (hw : HasType fieldType w ty) (hp : encodeTyped v = some p) (hq : encodeTyped w = some q) :
    p = q ↔ Same v w := by
  constructor
  · rintro rfl
    exact (hv.delimits hw).of_eq hp hq
  · intro hsame
    exact Option.some.inj ((hp.symm.trans hsame.encodeTyped_eq).trans hq)

/-! ### Values that have bytes -/

/-- Everything in the value fits into the width that it is written with. -/
inductive Fits : TypedValue → Prop
  | string {v : String} (short : (utf8 v).length < 2 ^ 32) : Fits (.string v)
  | int {t : IntType} {v : Int} (width : t.Contains v) : Fits (.int t v)
  | bool (v : Bool) : Fits (.bool v)
  | f64 {v : Double} (finite : v.isFinite) : Fits (.f64 v)
  | enum {enum v : String} (literal : (ordinal enum v).isSome) : Fits (.enum enum v)
  | seq {v : List TypedValue} (short : v.length < 2 ^ 32) (items : ∀ x ∈ v, Fits x) :
      Fits (.seq v)
  | struct {struct : String} {v : List (String × TypedValue)} (entries : ∀ e ∈ v, Fits e.2) :
      Fits (.struct struct v)

theorem exists_pack {t : IntType} {v : Int} (h : t.Contains v) : ∃ p, pack t v = some p :=
  ⟨_, if_pos h⟩

theorem contains_u32 {n : ℕ} (h : n < 2 ^ 32) : IntType.u32.Contains n := by
  have hrange : (0 : Int) ≤ n ∧ (n : Int) < 0 + 256 ^ 4 := by omega
  exact hrange

theorem length_literals : ∀ e ∈ enumLiterals, e.2.length < 2 ^ 32 := by decide

theorem ordinal_lt {enum v : String} {i : ℕ} (h : ordinal enum v = some i) : i < 2 ^ 32 := by
  obtain ⟨literals, hliterals, hi⟩ := Option.bind_eq_some_iff.mp h
  obtain ⟨hlt, -⟩ := List.idxOf?_eq_some_iff.mp hi
  exact hlt.trans (length_literals _ (mem_of_lookup hliterals))

theorem HasType.exists_encodeTyped (htype : HasType fieldType v ty) (hfits : Fits v) :
    ∃ p, encodeTyped v = some p := by
  induction htype with
  | string v =>
      cases hfits with
      | string short =>
          obtain ⟨p, hp⟩ := exists_pack (contains_u32 short)
          refine ⟨p ++ utf8 v, ?_⟩
          rw [encodeTyped]
          exact cat_eq_some.mpr ⟨p, utf8 v, hp, rfl, rfl⟩
  | int t v =>
      cases hfits with
      | int width => exact exists_pack width
  | bool v => exact ⟨_, rfl⟩
  | f64 v =>
      cases hfits with
      | f64 finite => exact ⟨_, if_pos finite⟩
  | enum enum v =>
      cases hfits with
      | enum literal =>
          obtain ⟨i, hi⟩ := Option.isSome_iff_exists.mp literal
          obtain ⟨p, hp⟩ := exists_pack (contains_u32 (ordinal_lt hi))
          refine ⟨p, ?_⟩
          rw [encodeTyped, hi, Option.bind_some, hp]
  | @seq v elem items ih =>
      cases hfits with
      | seq short fits =>
          obtain ⟨p, hp⟩ := exists_pack (contains_u32 short)
          have hitems : ∀ a ∈ v.map encodeTyped, ∃ p, a = some p := by
            intro a ha
            obtain ⟨x, hx, rfl⟩ := List.mem_map.mp ha
            exact ih x hx (fits x hx)
          obtain ⟨q, hq⟩ := exists_concat hitems
          refine ⟨p ++ q, ?_⟩
          rw [encodeTyped_seq]
          exact cat_eq_some.mpr ⟨p, q, hp, hq, rfl⟩
  | @struct struct fields v declared keys entries ih =>
      cases hfits with
      | struct fits =>
          have hfields : ∀ a ∈ fields.map (encodeField v), ∃ p, a = some p := by
            intro a ha
            obtain ⟨fld, hfld, rfl⟩ := List.mem_map.mp ha
            have hsome := (isSome_lookup_iff keys fld).mpr hfld
            obtain ⟨x, hx⟩ := Option.isSome_iff_exists.mp hsome
            obtain ⟨p, hp⟩ := ih (fld, x) (mem_of_lookup hx) (fits (fld, x) (mem_of_lookup hx))
            refine ⟨p, ?_⟩
            rw [encodeField, hx, Option.bind_some, hp]
          obtain ⟨r, hr⟩ := exists_concat hfields
          refine ⟨r, ?_⟩
          rw [encodeTyped_struct, declared, Option.bind_some, hr]

end DdsOrchestrator.LayaWorker
