/-
The handlers of the task types:

* `Registry`: types with their handlers, in ascending order of the types, where
  text is ordered by code points;
* `Registry.register`: adds a handler to a type that has none;
* `Registry.get?`, `Registry.types`: the handler of a type, and the types;
* `get?_of_register`: a new handler is found, and no other one is lost.
-/
import LeaseQueue.Error

namespace LeaseQueue

/-- Task types and their handlers. -/
structure Registry (η : Type) where
  entries : List (String × η) := []

namespace Registry

variable {η : Type}

/-- No handler at all. -/
def empty : Registry η := ⟨[]⟩

/-- The handler of the first entry of a type. -/
def find? (taskType : String) : List (String × η) → Option η
  | [] => none
  | (key, handler) :: rest => if taskType = key then some handler else find? taskType rest

/-- Puts an entry in front of the first greater one. -/
def place (taskType : String) (handler : η) : List (String × η) → List (String × η)
  | [] => [(taskType, handler)]
  | entry :: rest =>
    if taskType < entry.1 then (taskType, handler) :: entry :: rest
    else entry :: place taskType handler rest

/-- The handler of a type. -/
def get? (registry : Registry η) (taskType : String) : Option η :=
  find? taskType registry.entries

/-- The type has a handler. -/
def contains (registry : Registry η) (taskType : String) : Bool :=
  (registry.get? taskType).isSome

/-- The types that have a handler, in ascending order. -/
def types (registry : Registry η) : List String := registry.entries.map Prod.fst

/-- The number of types that have a handler. -/
def size (registry : Registry η) : Nat := registry.entries.length

def isEmpty (registry : Registry η) : Bool := registry.entries.isEmpty

/-- Adds a handler to a type. The handler that a type already has is kept. -/
def register (registry : Registry η) (taskType : String) (handler : η) :
    Except RegistryError (Registry η) :=
  if registry.contains taskType then .error (.alreadyRegistered taskType)
  else .ok ⟨place taskType handler registry.entries⟩

/-- Adds handlers up to the first one that is refused; those before it stay. -/
def registerAll (registry : Registry η) :
    List (String × η) → Option RegistryError × Registry η
  | [] => (none, registry)
  | (taskType, handler) :: rest =>
    match registry.register taskType handler with
    | .ok registry => registerAll registry rest
    | .error why => (some why, registry)

/-- The types for a reader. -/
def listing (registry : Registry η) : String :=
  let names := ", ".intercalate (registry.types.map Text.quote)
  s!"Registry \x7b types: [{names}] \x7d"

/-! ### What registering does to a look-up -/

theorem find?_place_self (taskType : String) (handler : η) {entries : List (String × η)}
    (h : find? taskType entries = none) :
    find? taskType (place taskType handler entries) = some handler := by
  induction entries with
  | nil => simp [place, find?]
  | cons entry rest ih =>
    obtain ⟨key, other⟩ := entry
    by_cases hk : taskType = key
    · simp [find?, hk] at h
    · have hr : find? taskType rest = none := by simpa [find?, hk] using h
      unfold place
      split
      · simp [find?]
      · simp [find?, hk, ih hr]

theorem find?_place_of_ne {taskType other : String} (h : other ≠ taskType) (handler : η)
    (entries : List (String × η)) :
    find? other (place taskType handler entries) = find? other entries := by
  induction entries with
  | nil => simp [place, find?, h]
  | cons entry rest ih =>
    unfold place
    split
    · simp [find?, h]
    · simp [find?, ih]

theorem get?_of_register {registry registry' : Registry η} {taskType : String} {handler : η}
    (h : registry.register taskType handler = .ok registry') (other : String) :
    registry'.get? other = if other = taskType then some handler else registry.get? other := by
  unfold register contains at h
  split at h
  · cases h
  · next hn =>
    cases h
    by_cases ho : other = taskType
    · subst ho
      have hnone : find? other registry.entries = none := by simpa [get?] using hn
      simp [get?, find?_place_self other handler hnone]
    · simp [get?, ho, find?_place_of_ne ho]

end Registry
end LeaseQueue
