import Mathlib.Data.Rat.Defs

/-!
JSON values as a parser keeps them: an object is a map in the order of its
keys, and a number is a natural, a negative integer or a fraction. Two objects
with the same entries are equal values, since each has its entries in order.
-/

namespace DdsOrchestrator

/-- A fraction stands for a finite double, by its value. -/
inductive Json.Number where
  | posInt (n : Nat)
  | negInt (n : Int)
  | float (q : Rat)
  deriving DecidableEq

mutual

inductive Json where
  | null
  | bool (b : Bool)
  | num (n : Json.Number)
  | str (s : String)
  | arr (xs : Json.Elems)
  | obj (fs : Json.Fields)
  deriving DecidableEq

inductive Json.Elems where
  | nil
  | cons (x : Json) (xs : Json.Elems)
  deriving DecidableEq

inductive Json.Fields where
  | nil
  | cons (key : String) (value : Json) (fs : Json.Fields)
  deriving DecidableEq

end

namespace Json

/-- The largest signed integer of 64 bits. -/
def i64Max : Nat := 9223372036854775807

def Elems.toList : Elems → List Json
  | nil => []
  | cons x xs => x :: xs.toList

def Elems.ofList : List Json → Elems
  | [] => nil
  | x :: xs => cons x (ofList xs)

namespace Fields

def get? : Fields → String → Option Json
  | nil, _ => none
  | cons key value fs, k => if key = k then some value else fs.get? k

/-- A key that is there gets the new value; a new one goes to its place. -/
def insert (k : String) (v : Json) : Fields → Fields
  | nil => cons k v nil
  | cons key value fs =>
      if k = key then cons k v fs
      else if k < key then cons k v (cons key value fs)
      else cons key value (insert k v fs)

def erase (k : String) : Fields → Fields
  | nil => nil
  | cons key value fs => if key = k then fs else cons key value (erase k fs)

def isEmpty : Fields → Bool
  | nil => true
  | cons .. => false

def ofList (entries : List (String × Json)) : Fields :=
  entries.foldl (fun fs e => fs.insert e.1 e.2) nil

@[simp] theorem isEmpty_insert (k : String) (v : Json) (fs : Fields) :
    (fs.insert k v).isEmpty = false := by
  cases fs with
  | nil => rfl
  | cons key value fs =>
      rw [insert]
      split
      · rfl
      · split <;> rfl

@[simp] theorem get?_insert_self (k : String) (v : Json) :
    ∀ fs : Fields, (fs.insert k v).get? k = some v
  | nil => by simp [insert, get?]
  | cons key value fs => by
      rw [insert]
      split
      · simp [get?]
      · next hne =>
          split
          · simp [get?]
          · simp [get?, Ne.symm hne, get?_insert_self k v fs]

theorem get?_insert_of_ne {k k' : String} (hne : k' ≠ k) (v : Json) :
    ∀ fs : Fields, (fs.insert k v).get? k' = fs.get? k'
  | nil => by simp [insert, get?, Ne.symm hne]
  | cons key value fs => by
      rw [insert]
      split
      · next hkey => simp [get?, ← hkey, Ne.symm hne]
      · split
        · simp [get?, Ne.symm hne]
        · rw [get?, get?, get?_insert_of_ne hne v fs]

end Fields

def asObject : Json → Option Fields
  | obj fs => some fs
  | _ => none

def asArray : Json → Option (List Json)
  | arr xs => some xs.toList
  | _ => none

def asStr : Json → Option String
  | str s => some s
  | _ => none

/-- A fraction is no integer, even where its value is one. -/
def asI64 : Json → Option Int
  | num (.posInt n) => if n ≤ i64Max then some n else none
  | num (.negInt n) => some n
  | _ => none

def isNull : Json → Bool
  | null => true
  | _ => false

def isObject : Json → Bool
  | obj _ => true
  | _ => false

/-- The value under a key; a value that is no object has none. -/
def get? (v : Json) (key : String) : Option Json := v.asObject.bind (·.get? key)

theorem get?_eq_some {v w : Json} {key : String} :
    v.get? key = some w ↔ ∃ fs, v = obj fs ∧ fs.get? key = some w := by
  cases v <;> simp [get?, asObject]

def ofInt (n : Int) : Json :=
  if n < 0 then num (.negInt n) else num (.posInt n.toNat)

/-- An integer that fits is read back. -/
theorem asI64_ofInt {n : Int} (h : n ≤ i64Max) : (ofInt n).asI64 = some n := by
  unfold ofInt
  split
  · rfl
  · have htoNat : n.toNat ≤ i64Max := by omega
    simp only [asI64, htoNat, if_true, Option.some.injEq]
    omega

theorem isObject_iff {v : Json} : v.isObject ↔ ∃ fs, v = obj fs := by
  cases v <;> simp [isObject]

/-- Assignment to a key: `null` turns into an object, and a value that is
neither has no such place, so that the assignment panics. -/
def setIndex (v : Json) (key : String) (value : Json) : Option Json :=
  match v with
  | null => some (obj (.cons key value .nil))
  | obj fs => some (obj (fs.insert key value))
  | _ => none

/-- An array of strings. -/
def strs (xs : List String) : Json := arr (.ofList (xs.map str))

end Json

end DdsOrchestrator
