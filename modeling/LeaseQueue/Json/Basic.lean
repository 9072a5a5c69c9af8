/-
JSON values. The entries of an object are kept in ascending order of their keys,
each key once, so that equal values are equal data:

* `Json`: the values, with decidable equality;
* `Json.insert`: puts an entry in its place; of two with one key the later wins;
* `Json.get?`: the entry of a key;
* `lookup_insert_self`, `lookup_insert_of_ne`: what an insertion does to a look-up.
-/
import LeaseQueue.Number.Double

namespace LeaseQueue

/-- A JSON value. A whole number in 64 bits, signed or not, is an `int`; every
other number is a `double`. -/
inductive Json where
  | null
  | bool (value : Bool)
  | int (value : Int)
  | double (value : Double)
  | string (value : String)
  | array (items : List Json)
  | object (entries : List (String × Json))
  deriving Inhabited

namespace Json

mutual

/-- Equality of values is decidable. -/
def decEq : (a b : Json) → Decidable (a = b)
  | .null, .null => isTrue rfl
  | .bool a, .bool b =>
    if h : a = b then isTrue (h ▸ rfl) else isFalse fun e => h (Json.bool.inj e)
  | .int a, .int b =>
    if h : a = b then isTrue (h ▸ rfl) else isFalse fun e => h (Json.int.inj e)
  | .double a, .double b =>
    if h : a = b then isTrue (h ▸ rfl) else isFalse fun e => h (Json.double.inj e)
  | .string a, .string b =>
    if h : a = b then isTrue (h ▸ rfl) else isFalse fun e => h (Json.string.inj e)
  | .array a, .array b =>
    match decEqItems a b with
    | isTrue h => isTrue (h ▸ rfl)
    | isFalse h => isFalse fun e => h (Json.array.inj e)
  | .object a, .object b =>
    match decEqEntries a b with
    | isTrue h => isTrue (h ▸ rfl)
    | isFalse h => isFalse fun e => h (Json.object.inj e)
  | .null, .bool _ | .null, .int _ | .null, .double _ | .null, .string _ | .null, .array _
  | .null, .object _ => isFalse fun e => by cases e
  | .bool _, .null | .bool _, .int _ | .bool _, .double _ | .bool _, .string _
  | .bool _, .array _ | .bool _, .object _ => isFalse fun e => by cases e
  | .int _, .null | .int _, .bool _ | .int _, .double _ | .int _, .string _
  | .int _, .array _ | .int _, .object _ => isFalse fun e => by cases e
  | .double _, .null | .double _, .bool _ | .double _, .int _ | .double _, .string _
  | .double _, .array _ | .double _, .object _ => isFalse fun e => by cases e
  | .string _, .null | .string _, .bool _ | .string _, .int _ | .string _, .double _
  | .string _, .array _ | .string _, .object _ => isFalse fun e => by cases e
  | .array _, .null | .array _, .bool _ | .array _, .int _ | .array _, .double _
  | .array _, .string _ | .array _, .object _ => isFalse fun e => by cases e
  | .object _, .null | .object _, .bool _ | .object _, .int _ | .object _, .double _
  | .object _, .string _ | .object _, .array _ => isFalse fun e => by cases e

def decEqItems : (a b : List Json) → Decidable (a = b)
  | [], [] => isTrue rfl
  | [], _ :: _ => isFalse fun e => by cases e
  | _ :: _, [] => isFalse fun e => by cases e
  | x :: xs, y :: ys =>
    match decEq x y, decEqItems xs ys with
    | isTrue h, isTrue h' => isTrue (h ▸ h' ▸ rfl)
    | isFalse h, _ => isFalse fun e => h (List.cons.inj e).1
    | _, isFalse h => isFalse fun e => h (List.cons.inj e).2

def decEqEntries : (a b : List (String × Json)) → Decidable (a = b)
  | [], [] => isTrue rfl
  | [], _ :: _ => isFalse fun e => by cases e
  | _ :: _, [] => isFalse fun e => by cases e
  | (k, x) :: xs, (k', y) :: ys =>
    match decEq x y, decEqEntries xs ys with
    | isTrue h, isTrue h' =>
      if hk : k = k' then isTrue (hk ▸ h ▸ h' ▸ rfl)
      else isFalse fun e => hk (Prod.mk.inj (List.cons.inj e).1).1
    | isFalse h, _ => isFalse fun e => h (Prod.mk.inj (List.cons.inj e).1).2
    | _, isFalse h => isFalse fun e => h (List.cons.inj e).2

end

instance : DecidableEq Json := decEq

/-! ### Objects -/

/-- Puts an entry in its place among entries in ascending order; an entry of the
same key is replaced. -/
def insert (key : String) (value : Json) : List (String × Json) → List (String × Json)
  | [] => [(key, value)]
  | entry :: rest =>
    if key < entry.1 then (key, value) :: entry :: rest
    else if key = entry.1 then (key, value) :: rest
    else entry :: insert key value rest

/-- The object of some entries; of two with one key the later wins. -/
def ofEntries (entries : List (String × Json)) : Json :=
  .object (entries.foldl (fun acc entry => insert entry.1 entry.2 acc) [])

/-- The first entry of a key. -/
def lookup (key : String) : List (String × Json) → Option Json
  | [] => none
  | entry :: rest => if key = entry.1 then some entry.2 else lookup key rest

@[simp] theorem lookup_insert_self (key : String) (value : Json)
    (entries : List (String × Json)) : lookup key (insert key value entries) = some value := by
  induction entries with
  | nil => simp [insert, lookup]
  | cons entry rest ih =>
    unfold insert
    split
    · simp [lookup]
    · split
      · simp [lookup]
      · next h => simp [lookup, h, ih]

theorem lookup_insert_of_ne {key other : String} (h : other ≠ key) (value : Json)
    (entries : List (String × Json)) :
    lookup other (insert key value entries) = lookup other entries := by
  induction entries with
  | nil => simp [insert, lookup, h]
  | cons entry rest ih =>
    unfold insert
    split
    · simp [lookup, h]
    · split
      · next hk => simp [lookup, ← hk, h]
      · simp [lookup, ih]

/-- The value of a key of an object; nothing for another kind of value. -/
def get? (key : String) : Json → Option Json
  | .object entries => lookup key entries
  | _ => none

/-- The object without entries. -/
def emptyObject : Json := .object []

/-- A text, or `null` for none. -/
def ofOption {α : Type} (f : α → Json) : Option α → Json
  | none => .null
  | some a => f a

end Json
end LeaseQueue
