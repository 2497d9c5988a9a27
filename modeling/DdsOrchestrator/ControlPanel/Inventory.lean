import Mathlib.Data.Finset.Dedup
import Mathlib.Data.List.Destutter
import Mathlib.Data.List.Sort
import Mathlib.Data.String.Basic
import DdsOrchestrator.Lib.Assoc
import DdsOrchestrator.Lib.Lines

/-!
The inventory of Ansible as the panel reads it: one pass over the lines, with the section they
stand in. A line of a host goes to its group and its variables to the host, a line of a
section of children copies what the named group has so far, and the sections of variables
are passed over.
-/

namespace DdsOrchestrator.ControlPanel

open Lines (lines trim isWhitespace)

structure VmHost where
  name : String
  address : String
  groups : List String
  ansibleUser : Option String
  connection : Option String
  vars : Map String String

structure VmInventory where
  hosts : List VmHost
  groups : Map String (List String)
  source : String

def sensitiveInventoryKeys : List String :=
  ["ansible_ssh_pass", "ansible_password", "ansible_become_pass",
    "ansible_ssh_private_key_file"]

def isSensitiveKey (key : String) : Bool :=
  let lower := key.toList.map Char.toLower
  String.ofList lower ∈ sensitiveInventoryKeys ||
    decide ("pass".toList <:+: lower) ||
    decide ("secret".toList <:+: lower) ||
    decide ("token".toList <:+: lower) ||
    decide ("private_key".toList <:+: lower)

def VmInventory.secrets (inventory : VmInventory) : Finset String :=
  (inventory.hosts.flatMap fun h =>
    (h.vars.entries.filter fun e => isSensitiveKey e.1).map fun e => e.2).toFinset

/-! ### Lines -/

def splitWhitespace (line : List Char) : List (List Char) :=
  (line.splitOnP isWhitespace).filter (· ≠ [])

def splitOnceAt (sep : Char) (token : List Char) : Option (List Char × List Char) :=
  match token.dropWhile (· ≠ sep) with
  | [] => none
  | _ :: rest => some (token.takeWhile (· ≠ sep), rest)

def stripSuffix (suffix name : List Char) : Option (List Char) :=
  if suffix <:+ name then some (name.take (name.length - suffix.length)) else none

def isQuote (c : Char) : Bool := c = '"' || c = '\''

def trimQuotes (value : List Char) : List Char :=
  ((value.dropWhile isQuote).reverse.dropWhile isQuote).reverse

def firstWord (line : List Char) : String := String.ofList ((splitWhitespace line).headD [])

/-- What a token assigns to a variable. -/
def assignment (token : List Char) : Option (String × String) :=
  (splitOnceAt '=' token).map fun e =>
    (String.ofList (trim e.1), String.ofList (trimQuotes (trim e.2)))

def parseHostLine (line : List Char) : String × Map String String :=
  (firstWord line,
    (splitWhitespace line).tail.foldl
      (fun vars token =>
        match assignment token with
        | some (key, value) => vars.insert key value
        | none => vars)
      ∅)

/-! ### The pass -/

/-- What is known behind a line. -/
structure Scan where
  groups : Map String (List String)
  rawHosts : Map String (Map String String)
  current : Option (List Char)

def Scan.init : Scan := ⟨∅, ∅, none⟩

/-- The entry of a group, made where it is missing, with members more. -/
def extendGroup (groups : Map String (List String)) (group : String) (members : List String) :
    Map String (List String) :=
  groups.insert group ((groups.lookup group).getD [] ++ members)

/-- The variables of a host, those of one more line over them. -/
def extendHost (rawHosts : Map String (Map String String)) (host : String)
    (vars : Map String String) : Map String (Map String String) :=
  rawHosts.insert host (vars ∪ (rawHosts.lookup host).getD ∅)

/-- A line without content, or a comment. -/
def skipped (line : List Char) : Bool :=
  line = [] || line.head? = some '#' || line.head? = some ';'

def isHeader (line : List Char) : Bool := line.head? = some '[' && line.getLast? = some ']'

def Scan.line (s : Scan) (rawLine : List Char) : Scan :=
  let line := trim rawLine
  if skipped line then s
  else if isHeader line then
    let header := trim (line.drop 1).dropLast
    { s with
      groups :=
        if ":vars".toList <:+ header ∨ ":children".toList <:+ header then s.groups
        else extendGroup s.groups (String.ofList header) []
      current := some header }
  else
    match s.current with
    | none => s
    | some group =>
        if ":vars".toList <:+ group then s
        else
          match stripSuffix ":children".toList group with
          | some parent =>
              match s.groups.lookup (firstWord line) with
              | some members =>
                  { s with groups := extendGroup s.groups (String.ofList parent) members }
              | none => s
          | none =>
              let (hostName, vars) := parseHostLine line
              if hostName = "" then s
              else
                { s with
                  groups := extendGroup s.groups (String.ofList group) [hostName]
                  rawHosts := extendHost s.rawHosts hostName vars }

def scan (text : String) : Scan := (lines text.toList).foldl Scan.line Scan.init

/-- Sorted, and each name once. -/
def sortDedup (members : List String) : List String :=
  (members.insertionSort (· ≤ ·)).destutter (· ≠ ·)

/-- The entries in the order of their keys. -/
def inOrder {β : Type} (m : Map String β) : List (String × β) :=
  (m.entries.map fun e => (e.1, e.2)).insertionSort fun e e' => e.1 ≤ e'.1

/-- A file that is not there, or cannot be read, is an empty inventory. -/
def loadInventory (path : String) (file : Option String) : VmInventory :=
  match file with
  | none => { hosts := [], groups := ∅, source := path }
  | some text =>
      let s := scan text
      let groups := Map.mapVals (fun _ members => sortDedup members) s.groups
      { hosts := (inOrder s.rawHosts).map fun e =>
          { name := e.1
            address := (e.2.lookup "ansible_host").getD e.1
            groups := ((inOrder groups).filter fun g => e.1 ∈ g.2).map fun g => g.1
            ansibleUser := e.2.lookup "ansible_user"
            connection := e.2.lookup "ansible_connection"
            vars := e.2 }
        groups := groups
        source := path }

/-! ### Members -/

/-- The members that a group has in a map. -/
def known (groups : Map String (List String)) (group host : String) : Prop :=
  host ∈ (groups.lookup group).getD []

theorem known_extendGroup (groups : Map String (List String)) (group : String)
    (members : List String) : known (extendGroup groups group members) = fun group' host =>
      known groups group' host ∨ (group' = group ∧ host ∈ members) := by
  funext group' host
  rw [known, extendGroup, Map.lookup_insert_if]
  by_cases h : group' = group
  · subst h
    simp [known]
  · simp [known, h]

theorem mem_destutter'_ne {l : List String} {a host : String} :
    host ∈ l.destutter' (· ≠ ·) a ↔ host = a ∨ host ∈ l := by
  induction l generalizing a with
  | nil => simp
  | cons b l ih =>
      by_cases h : a = b
      · rw [List.destutter'_cons_neg _ (not_not_intro h), ih, h]
        simp
      · rw [List.destutter'_cons_pos _ h, List.mem_cons, ih, List.mem_cons]

theorem mem_sortDedup {members : List String} {host : String} :
    host ∈ sortDedup members ↔ host ∈ members := by
  have hsort : host ∈ members.insertionSort (· ≤ ·) ↔ host ∈ members :=
    List.mem_insertionSort (· ≤ ·)
  rw [← hsort, sortDedup]
  cases members.insertionSort (· ≤ ·) with
  | nil => rfl
  | cons a l => rw [List.destutter_cons', mem_destutter'_ne, List.mem_cons]

/-! ### Variables -/

def variableOf (rawHosts : Map String (Map String String)) (host key : String) :
    Option String :=
  (rawHosts.lookup host).bind fun vars => vars.lookup key

theorem variableOf_extendHost (rawHosts : Map String (Map String String)) (host : String)
    (vars : Map String String) (host' key : String) :
    variableOf (extendHost rawHosts host vars) host' key =
      if host' = host then (vars.lookup key).or (variableOf rawHosts host key)
      else variableOf rawHosts host' key := by
  rw [variableOf, extendHost, Map.lookup_insert_if]
  by_cases h : host' = host
  · rw [if_pos h, if_pos h, Option.bind_some, Map.lookup_union, variableOf]
    cases rawHosts.lookup host with
    | none => rfl
    | some old => rfl
  · rw [if_neg h, if_neg h, variableOf]

theorem fst_parseHostLine (line : List Char) : (parseHostLine line).1 = firstWord line := rfl

/-- The line assigns what its tokens assign, the last one of a key. -/
theorem lookup_parseHostLine (line : List Char) (key : String) :
    (parseHostLine line).2.lookup key =
      Map.lastOf ((splitWhitespace line).tail.filterMap assignment) key := by
  have hfold : (parseHostLine line).2 =
      ((splitWhitespace line).tail.filterMap assignment).foldl
        (fun vars e => vars.insert e.1 e.2) ∅ := by
    rw [List.foldl_filterMap]
    refine List.foldl_ext _ _ _ fun vars token _ => ?_
    cases assignment token with
    | none => rfl
    | some e => rfl
  rw [hfold, Map.lookup_foldl_insert, AList.lookup_empty, Option.or_none]

/-! ### The inventory that is loaded -/

theorem mem_inOrder {β : Type} {m : Map String β} {name : String} {b : β} :
    (name, b) ∈ inOrder m ↔ m.lookup name = some b := by
  have hsort : (name, b) ∈ inOrder m ↔ (name, b) ∈ m.entries.map fun e => (e.1, e.2) :=
    List.mem_insertionSort _
  rw [hsort, ← Map.mem_entries, List.mem_map]
  constructor
  · rintro ⟨e, he, heq⟩
    obtain ⟨rfl, rfl⟩ := Prod.mk.inj heq
    exact he
  · intro h
    exact ⟨⟨name, b⟩, h, rfl⟩

theorem mem_members_loadInventory {path text group host : String} :
    host ∈ (((loadInventory path (some text)).groups.lookup group).getD []) ↔
      known (scan text).groups group host := by
  change host ∈ ((Map.mapVals (fun _ members => sortDedup members)
    (scan text).groups).lookup group).getD [] ↔ _
  rw [Map.lookup_mapVals, known]
  cases (scan text).groups.lookup group with
  | none => rfl
  | some members => exact mem_sortDedup

theorem mem_secrets_loadInventory {path text value : String} :
    value ∈ (loadInventory path (some text)).secrets ↔
      ∃ host key, isSensitiveKey key ∧ variableOf (scan text).rawHosts host key = some value := by
  simp only [VmInventory.secrets, loadInventory, List.mem_toFinset, List.mem_flatMap,
    List.mem_map, List.mem_filter]
  constructor
  · rintro ⟨-, ⟨⟨host, vars⟩, hhost, rfl⟩, ⟨⟨key, v⟩, ⟨hmem, hkey⟩, rfl⟩⟩
    refine ⟨host, key, hkey, ?_⟩
    rw [variableOf, mem_inOrder.mp hhost]
    exact Map.mem_entries.mp hmem
  · rintro ⟨host, key, hkey, hvalue⟩
    obtain ⟨vars, hhost, hvar⟩ := Option.bind_eq_some_iff.mp hvalue
    exact ⟨_, ⟨(host, vars), mem_inOrder.mpr hhost, rfl⟩, ⟨key, value⟩,
      ⟨Map.mem_entries.mpr hvar, hkey⟩, rfl⟩

end DdsOrchestrator.ControlPanel
