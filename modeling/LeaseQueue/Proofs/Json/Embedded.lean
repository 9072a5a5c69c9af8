/-
The values that are read as they are, when texts that are embedded in them are read for their
values.

* `Scan.Yields`: what is true of all that a reader gives;
* `Json.yields_readValue`: no reader gives an object of the mark alone;
* `Json.Unmarked`: the values in which no object starts with the mark;
* `Json.resolve_eq_self_iff`: these are read as they are, and no others.
-/
import LeaseQueue.Json.Embedded
import LeaseQueue.Proofs.Json.Entries

namespace LeaseQueue.Json

/-! ### What a reader gives -/

/-- All that a reader gives has a property. -/
def Scan.Yields {α : Type} (scan : Scan α) (property : α → Prop) : Prop :=
  ∀ s a rest, scan s = .ok (a, rest) → property a

namespace Scan.Yields

variable {α β : Type} {property : α → Prop}

lemma pure {a : α} (h : property a) : Yields (Pure.pure a) property := by
  rintro s _ _ ⟨⟩
  exact h

lemma fail (cause : Cause) (into : Nat) : Yields (Scan.fail cause into) property := by
  rintro s a rest ⟨⟩

lemma failHere (cause : Cause) : Yields (Scan.failHere cause) property := by
  rintro s a rest ⟨⟩

lemma seq {other : β → Prop} {scan : Scan β} {next : β → Scan α} (h : Yields scan other)
    (h' : ∀ b, other b → Yields (next b) property) : Yields (scan >>= next) property := by
  intro s a rest hrun
  change (scan s).bind (fun result => next result.1 result.2) = .ok (a, rest) at hrun
  cases hscan : scan s with
  | error fault => rw [hscan] at hrun; cases hrun
  | ok result =>
      rw [hscan] at hrun
      exact h' _ (h _ _ _ hscan) _ _ _ hrun

lemma bind {scan : Scan β} {next : β → Scan α} (h : ∀ b, Yields (next b) property) :
    Yields (scan >>= next) property :=
  seq (fun _ _ _ _ => trivial) fun b _ => h b

lemma map {scan : Scan β} {f : β → α} (h : ∀ b, property (f b)) :
    Yields (f <$> scan) property := by
  rw [map_eq_pure_bind]
  exact bind fun b => pure (h b)

lemma ofExcept {result : Except Mismatch α} (h : ∀ a, result = .ok a → property a) :
    Yields (Scan.ofExcept result) property := by
  cases result with
  | error why => exact fail _ _
  | ok a => exact pure (h a rfl)

lemma ite {p : Prop} [Decidable p] {first second : Scan α} (h : Yields first property)
    (h' : Yields second property) : Yields (if p then first else second) property := by
  split_ifs
  · exact h
  · exact h'

lemma of_run' {scan : Scan α} (h : Yields scan property) {s : List Char} {a : α}
    (hrun : scan.run' s = .ok a) : property a := by
  change (scan s).map Prod.fst = .ok a at hrun
  cases hscan : scan s with
  | error fault => rw [hscan] at hrun; cases hrun
  | ok result =>
      rw [hscan] at hrun
      cases hrun
      exact h _ _ _ hscan

end Scan.Yields

open Scan

/-! ### Numbers and words -/

/-- A value with entries. -/
def IsObject : Json → Prop
  | .object _ => True
  | _ => False

lemma yields_readParts (negative : Bool) (significand : Nat) (power : Int) :
    (readParts negative significand power).Yields (¬ IsObject ·) := by
  unfold readParts
  split
  · exact .fail _ _
  · exact .pure not_false

lemma yields_readExponent (negative : Bool) (significand : Nat) (power : Int) :
    (readExponent negative significand power).Yields (¬ IsObject ·) := by
  unfold readExponent
  refine .bind fun _ => .bind fun _ => ?_
  extract_lets behindSign
  have hbehind : ∀ down, (behindSign down).Yields (¬ IsObject ·) := by
    refine fun down => .bind fun first => ?_
    cases first with
    | none => exact .fail _ _
    | some c =>
        refine .ite (.bind fun s => .bind fun _ => .ite (.ite ?_ ?_) ?_) (.fail _ _)
        · exact .fail _ _
        · exact .bind fun _ => .pure not_false
        · exact yields_readParts _ _ _
  split <;> exact .bind fun _ => hbehind _

lemma yields_readDoubleEnd (negative : Bool) (significand : Nat) (power : Int) :
    (readDoubleEnd negative significand power).Yields (¬ IsObject ·) := by
  unfold readDoubleEnd
  refine .bind fun _ => ?_
  split
  · exact yields_readExponent _ _ _
  · exact yields_readExponent _ _ _
  · exact yields_readParts _ _ _

lemma yields_readFraction (negative : Bool) (significand : Nat) (power : Int) :
    (readFraction negative significand power).Yields (¬ IsObject ·) := by
  unfold readFraction
  refine .bind fun _ => .bind fun s => .bind fun _ => .ite ?_ (.ite (.ite ?_ ?_) ?_)
  · exact .bind fun _ => yields_readDoubleEnd _ _ _
  · exact .failHere _
  · exact .failHere _
  · exact yields_readDoubleEnd _ _ _

lemma not_isObject_wholeNumber (negative : Bool) (n : Nat) :
    ¬ IsObject (wholeNumber negative n) := by
  unfold wholeNumber
  split_ifs <;> exact not_false

lemma yields_readNumber (negative : Bool) : (readNumber negative).Yields (¬ IsObject ·) := by
  unfold readNumber
  refine .bind fun _ => ?_
  split
  · exact .fail _ _
  · refine .bind fun _ => .bind fun _ => ?_
    split
    · exact yields_readFraction _ _ _
    · exact yields_readExponent _ _ _
    · exact yields_readExponent _ _ _
    · exact .ite (.failHere _) (.pure (not_isObject_wholeNumber _ _))
    · exact .pure (not_isObject_wholeNumber _ _)
  · refine .ite (.bind fun s => .bind fun _ => .bind fun more => .bind fun _ => ?_) (.fail _ _)
    split
    · exact yields_readFraction _ _ _
    · exact yields_readExponent _ _ _
    · exact yields_readExponent _ _ _
    · exact .ite (.pure (not_isObject_wholeNumber _ _)) (yields_readParts _ _ _)

/-- A value without parts is no object. -/
lemma yields_readScalar (c : Char) : (readScalar c).Yields (¬ IsObject ·) := by
  unfold readScalar
  split
  · exact .bind fun _ => .bind fun _ => .pure not_false
  · exact .bind fun _ => .bind fun _ => .pure not_false
  · exact .bind fun _ => .bind fun _ => .pure not_false
  · exact .bind fun _ => yields_readNumber true
  · exact .map fun _ => not_false
  · exact .ite (yields_readNumber false) (.failHere _)

/-! ### Objects -/

/-- The object of the mark alone. -/
def IsMarked (value : Json) : Prop := ∃ inside, value = .object [(mark, inside)]

lemma not_isMarked_of_not_isObject {value : Json} (h : ¬ IsObject value) : ¬ IsMarked value := by
  rintro ⟨inside, rfl⟩
  exact h trivial

/-- An object with another key is not marked. -/
lemma not_isMarked_ofEntries {key : String} (hkey : key ≠ mark) (value : Json)
    (entries : List (String × Json)) : ¬ IsMarked (ofEntries ((key, value) :: entries)) := by
  rintro ⟨inside, h⟩
  have hfound : (lookup key (insertAll [] ((key, value) :: entries))).isSome :=
    isSome_lookup_insertAll (.inl List.mem_cons_self)
  rw [ofEntries_eq] at h
  rw [Json.object.inj h] at hfound
  simp [lookup, hkey] at hfound

/-- What a reader gives on the text of an embedded value. -/
lemma Scan.Yields.of_embeddedIn {scan : Scan Json} {property : Json → Prop}
    (h : scan.Yields property) {text : String} {value : Json}
    (hvalue : embeddedIn text scan = .ok value) : property value := by
  have hwhole : Yields (do let a ← scan; readEnd; Pure.pure a) property :=
    .seq h fun _ ha => .bind fun _ => .pure ha
  rw [embeddedIn] at hvalue
  cases hrun : runScan scan text with
  | error fault => rw [hrun] at hvalue; cases hvalue
  | ok read =>
      rw [hrun] at hvalue
      cases hvalue
      exact hwhole.of_run' hrun

/-- No text is read as the object of the mark alone. -/
lemma yields_readValue (fuel depth : Nat) : (readValue fuel depth).Yields (¬ IsMarked ·) := by
  induction fuel generalizing depth with
  | zero => exact .fail _ _
  | succ fuel ih =>
      unfold readValue
      refine .bind fun first => ?_
      split
      · exact .failHere _
      · exact .bind fun _ => .bind fun _ => .bind fun _ =>
          .pure (not_isMarked_of_not_isObject not_false)
      · refine .bind fun inside => .bind fun more => .ite ?_ ?_
        · refine .bind fun key => .bind fun _ => ?_
          split_ifs with hkey
          · exact .bind fun text => .seq (.ofExcept fun _ => (ih depthLimit).of_embeddedIn)
              fun _ hvalue => .bind fun _ => .pure hvalue
          · exact .bind fun value => .bind fun entries => .bind fun _ =>
              .pure (not_isMarked_ofEntries hkey value entries)
        · exact .bind fun _ => .pure (by rintro ⟨inside, h⟩; cases h)
      · intro s value rest h
        exact not_isMarked_of_not_isObject (yields_readScalar _ s value rest h)

/-! ### Values without a mark -/

/-- No object in the value starts with the mark. -/
inductive Unmarked : Json → Prop where
  | null : Unmarked .null
  | bool (b : Bool) : Unmarked (.bool b)
  | int (n : Int) : Unmarked (.int n)
  | double (x : Double) : Unmarked (.double x)
  | string (s : String) : Unmarked (.string s)
  | array {items : List Json} (h : ∀ item ∈ items, Unmarked item) : Unmarked (.array items)
  | object {entries : List (String × Json)} (hmark : atMark? entries = none)
      (h : ∀ entry ∈ entries, Unmarked entry.2) : Unmarked (.object entries)

/-- What holds of every value, if it holds of an array or object whenever it holds of its parts. -/
@[elab_as_elim]
theorem ind {property : Json → Prop} (null : property .null) (bool : ∀ b, property (.bool b))
    (int : ∀ n, property (.int n)) (double : ∀ x, property (.double x))
    (string : ∀ s, property (.string s))
    (array : ∀ items, (∀ item ∈ items, property item) → property (.array items))
    (object : ∀ entries : List (String × Json), (∀ entry ∈ entries, property entry.2) →
      property (.object entries)) (value : Json) : property value :=
  @Json.rec property (fun items => ∀ item ∈ items, property item)
    (fun entries => ∀ entry ∈ entries, property entry.2) (fun entry => property entry.2)
    null bool int double string array object
    (fun _ h => absurd h List.not_mem_nil)
    (fun _ _ hitem hitems _ h => (List.mem_cons.mp h).elim (· ▸ hitem) (hitems _))
    (fun _ h => absurd h List.not_mem_nil)
    (fun _ _ hentry hentries _ h => (List.mem_cons.mp h).elim (· ▸ hentry) (hentries _))
    (fun _ _ h => h) value

lemma resolveItems_eq_self_iff {items : List Json} :
    resolveItems items = .ok items ↔ ∀ item ∈ items, resolve item = .ok item := by
  induction items with
  | nil => simp [resolveItems]
  | cons item items ih =>
      rw [List.forall_mem_cons, ← ih, resolveItems]
      cases hitem : resolve item with
      | error why => simp [bind, Except.bind]
      | ok read =>
          cases hitems : resolveItems items <;>
            simp [bind, Except.bind, pure, Except.pure]

lemma resolveEntries_eq_self_iff {entries : List (String × Json)} :
    resolveEntries entries = .ok entries ↔ ∀ entry ∈ entries, resolve entry.2 = .ok entry.2 := by
  induction entries with
  | nil => simp [resolveEntries]
  | cons entry entries ih =>
      obtain ⟨key, value⟩ := entry
      rw [List.forall_mem_cons, ← ih, resolveEntries]
      cases hvalue : resolve value with
      | error why => simp [bind, Except.bind]
      | ok read =>
          cases hentries : resolveEntries entries <;>
            simp [bind, Except.bind, pure, Except.pure]

lemma lookup_of_atMark? {entries : List (String × Json)} {inside : Json}
    (h : atMark? entries = some inside) : lookup mark entries = some inside := by
  cases entries with
  | nil => cases h
  | cons entry entries =>
      rw [atMark?] at h
      split_ifs at h with hkey
      cases h
      exact if_pos hkey.symm

/-- What an object embeds at the mark is not the object itself. -/
lemma ofMarked_ne_self {entries : List (String × Json)} {inside : Json}
    (h : lookup mark entries = some inside) :
    ofMarked entries.length inside ≠ .ok (.object entries) := by
  intro hread
  cases inside with
  | null | bool | int | double | array | object => cases hread
  | string text =>
      simp only [ofMarked] at hread
      cases hvalue : ofEmbedded text with
      | error why => rw [hvalue] at hread; cases hread
      | ok value =>
          simp only [hvalue, bind, Except.bind] at hread
          split_ifs at hread with hone
          obtain ⟨entry, rfl⟩ := List.length_eq_one_iff.mp hone
          cases hread
          have hkey : mark = entry.1 := by
            by_contra hne
            simp [lookup, hne] at h
          exact (yields_readValue _ _).of_embeddedIn hvalue ⟨entry.2, by rw [hkey]⟩

/-- The values without a mark are read as they are, and no others. -/
theorem resolve_eq_self_iff (value : Json) : value.resolve = .ok value ↔ value.Unmarked := by
  induction value using ind with
  | null => exact ⟨fun _ => .null, fun _ => rfl⟩
  | bool b => exact ⟨fun _ => .bool b, fun _ => rfl⟩
  | int n => exact ⟨fun _ => .int n, fun _ => rfl⟩
  | double x => exact ⟨fun _ => .double x, fun _ => rfl⟩
  | string s => exact ⟨fun _ => .string s, fun _ => rfl⟩
  | array items ih =>
      have hitems : resolve (.array items) = .ok (.array items) ↔
          resolveItems items = .ok items := by
        rw [resolve]
        cases resolveItems items <;> simp [bind, Except.bind, pure, Except.pure]
      rw [hitems, resolveItems_eq_self_iff]
      constructor
      · exact fun h => .array fun item hmem => (ih item hmem).mp (h item hmem)
      · rintro (_ | _ | _ | _ | _ | h)
        exact fun item hmem => (ih item hmem).mpr (h item hmem)
  | object entries ih =>
      cases hmark : atMark? entries with
      | some inside =>
          rw [resolve, hmark]
          refine iff_of_false (ofMarked_ne_self (lookup_of_atMark? hmark)) ?_
          rintro (_ | _ | _ | _ | _ | _ | ⟨hnone, -⟩)
          rw [hmark] at hnone
          cases hnone
      | none =>
          have hentries : resolve (.object entries) = .ok (.object entries) ↔
              resolveEntries entries = .ok entries := by
            rw [resolve, hmark]
            cases resolveEntries entries <;> simp [bind, Except.bind, pure, Except.pure]
          rw [hentries, resolveEntries_eq_self_iff]
          constructor
          · exact fun h => .object hmark fun entry hmem => (ih entry hmem).mp (h entry hmem)
          · rintro (_ | _ | _ | _ | _ | _ | ⟨-, h⟩)
            exact fun entry hmem => (ih entry hmem).mpr (h entry hmem)

end LeaseQueue.Json
