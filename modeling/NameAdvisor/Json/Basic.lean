import NameAdvisor.Decimal.Double

/-!
# JSON values

## Main definitions

* `Json.Number`: whole numbers by their sign, and double-precision numbers.
* `Json`: a value; the members of an object are a list of pairs.
* `Json.Members`: what can be done with the members of an object that are in order of their names.
* `Json.canonical`: a value whose objects are in order of names, the last of repeated names kept.
-/

namespace NameAdvisor

namespace Json

/-- A JSON number as it is told apart by readers. -/
inductive Number where
  /-- The whole number `n`. -/
  | natural (n : Nat)
  /-- The whole number `-(n + 1)`. -/
  | negative (n : Nat)
  /-- A number with a fraction or an exponent, or one too large for a word. -/
  | double (x : Double)
  deriving DecidableEq, Repr, Inhabited

def Number.text : Number → String
  | .natural n => toString n
  | .negative n => "-" ++ toString (n + 1)
  | .double x => x.text

end Json

/-- A JSON value. -/
inductive Json where
  | null
  | bool (b : Bool)
  | number (n : Json.Number)
  | string (s : String)
  | array (items : List Json)
  | object (members : List (String × Json))
  deriving Repr, Inhabited

namespace Json

/-- The whole number `n`. -/
def nat (n : Nat) : Json :=
  .number (.natural n)

def strings (xs : List String) : Json :=
  .array (xs.map .string)

def isNull : Json → Bool
  | .null => true
  | _ => false

@[simp] theorem isNull_null : isNull .null = true := rfl

/-- The members of an object. -/
abbrev Members : Type := List (String × Json)

namespace Members

/-- The value of the first member called `key`. -/
def find? (key : String) (members : Members) : Option Json :=
  members.lookup key

/-- Puts `value` under `key`, in order of names and in place of an equal name. -/
def insert (key : String) (value : Json) : Members → Members
  | [] => [(key, value)]
  | (k, v) :: rest =>
    if key < k then (key, value) :: (k, v) :: rest
    else if key = k then (key, value) :: rest
    else (k, v) :: insert key value rest

@[simp] theorem find?_nil (key : String) : find? key [] = none := rfl

theorem find?_cons (key k : String) (v : Json) (rest : Members) :
    find? key ((k, v) :: rest) = if key = k then some v else find? key rest := by
  unfold find?
  rw [List.lookup_cons]
  by_cases h : key = k
  · simp [h]
  · simp [h, beq_eq_false_iff_ne.2 h]

/-- A member that was just put in is found. -/
@[simp] theorem find?_insert_self (key : String) (value : Json) (members : Members) :
    find? key (insert key value members) = some value := by
  induction members with
  | nil => simp [insert, find?_cons]
  | cons m rest ih =>
    obtain ⟨k, v⟩ := m
    unfold insert
    split
    · simp [find?_cons]
    · split
      · simp [find?_cons]
      · next h => simp [find?_cons, h, ih]

/-- Putting in a member leaves the others alone. -/
theorem find?_insert_of_ne {key other : String} (h : other ≠ key) (value : Json) (members : Members) :
    find? other (insert key value members) = find? other members := by
  induction members with
  | nil => simp [insert, find?_cons, h]
  | cons m rest ih =>
    obtain ⟨k, v⟩ := m
    unfold insert
    split
    · simp [find?_cons, h]
    · split
      · next hk => subst hk; simp [find?_cons, h]
      · simp [find?_cons, ih]

/-- The members of `members` in order of names, the last of repeated names kept. -/
def sorted (members : Members) : Members :=
  members.foldl (fun acc m => insert m.1 m.2 acc) []

end Members

mutual

/-- The value with every object in order of names, the last of repeated names kept. -/
def canonical : Json → Json
  | .array items => .array (canonicalItems items)
  | .object members => .object (Members.sorted (canonicalMembers members))
  | j => j

def canonicalItems : List Json → List Json
  | [] => []
  | j :: rest => canonical j :: canonicalItems rest

def canonicalMembers : List (String × Json) → List (String × Json)
  | [] => []
  | (k, j) :: rest => (k, canonical j) :: canonicalMembers rest

end

/-- The value of the member `key` of an object, and `null` where there is none. -/
def get (key : String) : Json → Json
  | .object members => (Members.find? key members).getD .null
  | _ => .null

def asString? : Json → Option String
  | .string s => some s
  | _ => none

end Json

end NameAdvisor
