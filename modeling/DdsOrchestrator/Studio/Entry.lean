import DdsOrchestrator.Lib.JsonText
import DdsOrchestrator.Lib.Lines
import DdsOrchestrator.Studio.Catalog

/-!
The text of a journal entry, as `serde_json` writes it: the call that was accepted, on one
line, in one object with the name of the operation first. The text says which call it is,
and no shorter or longer piece of the file is a closed object.
-/

namespace DdsOrchestrator.Studio

/-- An entry of the journal is the call that was accepted. -/
abbrev JournalEntry := Call

namespace Call

def optionText : Option UInt64 → List Char
  | none => ['n', 'u', 'l', 'l']
  | some n => Json.intText n.toNat

/-- The members behind the base. -/
def publishTail (value : String) (generation : UInt64) : List (String × Json.Scalar) :=
  [("value", .str value), ("generation", .int generation.toNat)]

def members (fs : List (String × Json.Scalar)) : List Char :=
  fs.flatMap (fun f => ',' :: Json.member f) ++ ['\x7d']

def publishText (id : String) (base : Option UInt64) (value : String) (generation : UInt64) :
    List Char :=
  '\x7b' :: (Json.member ("op", .str "publish") ++ ',' :: (Json.member ("id", .str id) ++
    ',' :: ((Json.quote "base").toList ++ ':' :: (optionText base ++
      members (publishTail value generation)))))

def toText : Call → String
  | publish id base value generation => String.ofList (publishText id base value generation)
  | delete id base =>
      Json.object [("op", .str "delete"), ("id", .str id), ("base", .int base.toNat)]

/-- What one append writes. -/
def line (e : Call) : ByteArray := (e.toText ++ "\n").toUTF8

theorem optionText_append_inj {b b' : Option UInt64} {x y : Char} {cs ds : List Char}
    (hx : x.isDigit = false) (hy : y.isDigit = false)
    (h : optionText b ++ x :: cs = optionText b' ++ y :: ds) : b = b' ∧ x :: cs = y :: ds := by
  have hnull : ∀ (n : UInt64) (cs ds : List Char), Json.intText n.toNat ++ cs ≠ 'n' :: ds := by
    intro n cs ds
    have hnonneg : ¬ ((n.toNat : Int) < 0) := by omega
    rw [Json.intText, if_neg hnonneg]
    exact Json.natText_append_ne (by decide) _ _ _
  cases b with
  | none =>
      cases b' with
      | none => exact ⟨rfl, List.append_cancel_left h⟩
      | some n => exact absurd h.symm (hnull n _ _)
  | some n =>
      cases b' with
      | none => exact absurd h (hnull n _ _)
      | some m =>
          obtain ⟨hnm, hrest⟩ := Json.intText_append_inj hx hy h
          exact ⟨congrArg some (UInt64.toNat_inj.mp (by omega)), hrest⟩

theorem publishText_inj {id id' : String} {base base' : Option UInt64} {value value' : String}
    {generation generation' : UInt64}
    (h : publishText id base value generation = publishText id' base' value' generation') :
    id = id' ∧ base = base' ∧ value = value' ∧ generation = generation' := by
  obtain ⟨-, hid⟩ := Json.member_append_inj (by decide) (by decide) (List.cons.inj h).2
  obtain ⟨hid, hbase⟩ := Json.member_append_inj (by decide) (by decide) (List.cons.inj hid).2
  have hbase := List.append_cancel_left (List.cons.inj hbase).2
  obtain ⟨x, cs, htail, hx⟩ :=
    Json.members_inj.members_eq_cons (publishTail value generation)
  obtain ⟨y, ds, htail', hy⟩ :=
    Json.members_inj.members_eq_cons (publishTail value' generation')
  have hbase := (List.cons.inj hbase).2
  rw [members, members, htail, htail'] at hbase
  obtain ⟨hbase, hrest⟩ := optionText_append_inj hx hy hbase
  rw [← htail, ← htail'] at hrest
  have htails := Json.members_inj hrest
  simp only [publishTail, List.cons.injEq, Prod.mk.injEq, Json.Scalar.str.injEq,
    Json.Scalar.int.injEq, Int.natCast_inj, UInt64.toNat_inj, true_and, and_true] at htails
  refine ⟨?_, hbase, htails.1, htails.2⟩
  simpa using hid

/-- The two operations have different names. -/
theorem publishText_ne_delete (id : String) (base : Option UInt64) (value : String)
    (generation : UInt64) (fs : List (String × Json.Scalar)) :
    publishText id base value generation ≠
      (Json.object (("op", .str "delete") :: fs)).toList := by
  rw [Json.toList_object_cons]
  intro h
  obtain ⟨x, cs, hfs, hx⟩ := Json.members_inj.members_eq_cons fs
  have h := (List.cons.inj h).2
  rw [hfs] at h
  obtain ⟨hname, -⟩ := Json.member_append_inj (by decide) hx h
  simp at hname

theorem toText_injective : Function.Injective toText := by
  intro e e' h
  have hlist := congrArg String.toList h
  cases e with
  | publish id base value generation =>
      cases e' with
      | publish id' base' value' generation' =>
          simp only [toText, String.toList_ofList] at hlist
          obtain ⟨rfl, rfl, rfl, rfl⟩ := publishText_inj hlist
          rfl
      | delete id' base' =>
          simp only [toText, String.toList_ofList] at hlist
          exact absurd hlist (publishText_ne_delete _ _ _ _ _)
  | delete id base =>
      cases e' with
      | publish id' base' value' generation' =>
          simp only [toText, String.toList_ofList] at hlist
          exact absurd hlist.symm (publishText_ne_delete _ _ _ _ _)
      | delete id' base' =>
          have hmembers := Json.object_injective h
          simp only [List.cons.injEq, Prod.mk.injEq, Json.Scalar.str.injEq,
            Json.Scalar.int.injEq, Int.natCast_inj, UInt64.toNat_inj, true_and,
            and_true] at hmembers
          rw [hmembers.1, hmembers.2]

theorem newline_notMem_optionText (base : Option UInt64) : '\n' ∉ optionText base := by
  cases base with
  | none => decide
  | some n => exact Json.newline_notMem_intText _

theorem newline_notMem_toText (e : Call) : '\n' ∉ e.toText.toList := by
  cases e with
  | publish id base value generation =>
      simp [toText, publishText, members, publishTail, Json.newline_notMem_member,
        Json.newline_notMem_quote, newline_notMem_optionText]
  | delete id base => exact Json.newline_notMem_object _ _

theorem head?_toText (e : Call) : e.toText.toList.head? = some '\x7b' := by
  cases e with
  | publish id base value generation =>
      rw [toText, String.toList_ofList]
      rfl
  | delete id base =>
      rw [toText, Json.toList_object_cons]
      rfl

theorem getLast?_toText (e : Call) : e.toText.toList.getLast? = some '\x7d' := by
  cases e with
  | publish id base value generation =>
      have hsplit : publishText id base value generation =
          ('\x7b' :: (Json.member ("op", .str "publish") ++ ',' :: (Json.member ("id", .str id) ++
            ',' :: ((Json.quote "base").toList ++ ':' :: optionText base)))) ++
          members (publishTail value generation) := by
        simp only [publishText, List.cons_append, List.append_assoc]
      rw [toText, String.toList_ofList, hsplit, List.getLast?_append]
      simp [members]
  | delete id base => exact Json.getLast?_object _ _

theorem size_line (e : Call) : e.line.size = e.toText.toUTF8.size + 1 := by
  rw [line, Lines.toUTF8_append, ByteArray.size_append]
  rfl

theorem extract_line (e : Call) : e.line.extract 0 (e.line.size - 1) = e.toText.toUTF8 := by
  rw [e.size_line, Nat.add_sub_cancel, line, Lines.toUTF8_append,
    ByteArray.extract_append_size_left, ByteArray.extract_zero_size]

theorem toText_ne_nil (e : Call) : e.toText.toList ≠ [] := by
  intro hnil
  have hhead := e.head?_toText
  rw [hnil] at hhead
  cases hhead

theorem size_toText_ne_zero (e : Call) : e.toText.toUTF8.size ≠ 0 := by
  intro hzero
  have hempty : e.toText = "" := by simpa using hzero
  apply e.toText_ne_nil
  rw [hempty]
  rfl

theorem run_optionText (depth : Nat) (base : Option UInt64) :
    (Json.Scan.between depth).run (optionText base) = .between depth := by
  cases base with
  | none => rfl
  | some n => exact Json.Scan.run_intText depth _

/-- Behind a member and its comma the next one begins. -/
theorem run_member_comma (depth : Nat) (f : String × Json.Scalar) (cs : List Char) :
    (Json.Scan.between depth).run (Json.member f ++ ',' :: cs) =
      (Json.Scan.between depth).run cs := by
  rw [Json.Scan.run_append, Json.Scan.run_cons]
  rcases Json.Scan.run_member depth f with h | h
  · rw [h]
    rfl
  · rw [h]
    rfl

theorem closed_toText (e : Call) : Json.Closed e.toText := by
  cases e with
  | publish id base value generation =>
      have hopen : Json.Scan.start.step '\x7b' = .between 0 := by decide
      have hcolon : (Json.Scan.behind 0).step ':' = .between 0 := by decide
      rw [Json.Closed, toText, String.toList_ofList, publishText, Json.Scan.run_cons, hopen,
        run_member_comma, run_member_comma, Json.Scan.run_append, Json.Scan.run_quote,
        Json.Scan.run_cons, hcolon, Json.Scan.run_append, run_optionText]
      exact Json.Scan.run_members 0 _ (.inl rfl)
  | delete id base => exact Json.closed_object _ _

end Call

end DdsOrchestrator.Studio
