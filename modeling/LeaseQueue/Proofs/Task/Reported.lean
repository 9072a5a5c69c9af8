/-
An outcome is read from its JSON.

* `Outcome.stateRead?`: what is read where a state is written;
* `Outcome.toOption_ofJson_toJson`: an outcome is read with this state;
* `Outcome.HasLastingState`: it has no state, or one that is neither `null` nor marked;
* `Outcome.reported_iff`: the outcomes that are read as they are, and those to which no store can
  tell the difference.
-/
import LeaseQueue.Proofs.Store.Alike
import LeaseQueue.Proofs.Task.Decoded

namespace LeaseQueue.Outcome

/-! ### States -/

/-- What is read where a state is written, or where there is none. `null` is read as none, and any
other state with the texts in it resolved. -/
def stateRead? : Option Json → Option (Option Json)
  | none | some .null => some none
  | some state => state.resolve.toOption.map some

lemma toOption_ofJson_state (state : Option Json) :
    ((Kind.optional .json).ofJson (state.getD .null)).toOption = stateRead? state := by
  rcases state with _ | value
  · rfl
  · cases value with
    | null => rfl
    | bool | int | double | string | array | object => exact toOption_map _ _

/-- Of the states only those are read as they are that are neither `null` nor marked. -/
lemma stateRead?_eq_self_iff (state : Option Json) :
    stateRead? state = some state ↔ ∀ value ∈ state, value ≠ .null ∧ value.Unmarked := by
  rcases state with _ | value
  · simp [stateRead?]
  · simp only [Option.mem_some_iff, forall_eq', ← Json.resolve_eq_self_iff]
    cases value with
    | null => simp [stateRead?]
    | bool | int | double | string | array | object =>
        simp [stateRead?, toOption_eq_some_iff]

/-! ### Outcomes -/

/-- The values of the fields of an outcome, in order. -/
def items (o : Outcome) : List Json := o.fields.map Prod.snd

lemma toOption_ofJson_items (o : Outcome) :
    (ofJson (.array o.items)).toOption =
      (stateRead? o.state).map fun state => { o with state } := by
  have hstatus := Kind.ofJson_name o.status
  have herror : (Kind.optional .string).ofJson (.ofOption .string o.error) = .ok o.error :=
    Kind.ofJson_ofOption fun _ _ => ⟨nofun, rfl⟩
  rw [← toOption_ofJson_state]
  simp only [ofJson, Shape.ofJson, shape, Field.required, Field.optional, items, fields,
    List.map_cons, List.map_nil, Shape.ofItems, hstatus, herror]
  cases (Kind.optional .json).ofJson (o.state.getD .null) <;> rfl

/-- An outcome is read from its object with what is read of its state. -/
lemma toOption_ofJson_toJson (o : Outcome) :
    (ofJson o.toJson).toOption = (stateRead? o.state).map fun state => { o with state } := by
  have hnames : o.fields.map Prod.fst = shape.fields.map Field.name := rfl
  rw [← toOption_ofJson_items, ofJson, ofJson, toOption_map, toOption_map, toJson,
    Shape.ofJson_ofEntries shape hnames (by decide)]
  rfl

/-- The outcome has no state, or one that is neither `null` nor marked. -/
def HasLastingState (o : Outcome) : Prop := ∀ state ∈ o.state, state ≠ .null ∧ state.Unmarked

lemma ofJson_toJson_eq_iff {o read : Outcome} :
    ofJson o.toJson = .ok read ↔
      ∃ state, stateRead? o.state = some state ∧ { o with state } = read := by
  rw [← toOption_eq_some_iff, toOption_ofJson_toJson, Option.map_eq_some_iff]

lemma ofJson_toJson_eq_self_iff (o : Outcome) : ofJson o.toJson = .ok o ↔ o.HasLastingState := by
  rw [ofJson_toJson_eq_iff, HasLastingState, ← stateRead?_eq_self_iff]
  constructor
  · rintro ⟨state, hstate, hsame⟩
    rw [hstate, ← hsame]
  · exact fun hstate => ⟨o.state, hstate, rfl⟩

/-- What is read of an outcome is like it if its state lasts, or if it is refused anyway. -/
lemma alike_read_iff {o read : Outcome} (h : ofJson o.toJson = .ok read) :
    read.Alike o ↔ o.HasLastingState ∨ o.status = .running := by
  obtain ⟨state, hstate, rfl⟩ := ofJson_toJson_eq_iff.mp h
  constructor
  · intro alike
    refine or_iff_not_imp_right.mpr fun hp => (stateRead?_eq_self_iff o.state).mp ?_
    exact hstate.trans (congrArg some (alike.state hp))
  · rintro (hlasts | hp)
    · have hsame := hstate.symm.trans ((stateRead?_eq_self_iff o.state).mpr hlasts)
      exact ⟨rfl, fun _ => Option.some.inj hsame, fun _ => rfl⟩
    · exact ⟨rfl, absurd hp, fun _ => rfl⟩

/-- An outcome is read with its status and its message. Its state is read with the texts that are
embedded in it resolved, and `null` is read as no state at all. So it is the same outcome if and
only if it has no state, or one that is neither `null` nor marked. Then it does the same to every
store, and so does an outcome that is refused anyway. Any other can be told from what is read of it
by the store behind some run. -/
theorem reported_iff (o : Outcome) :
    (ofJson o.toJson).toOption = (stateRead? o.state).map (fun state => { o with state }) ∧
      (ofJson o.toJson = .ok o ↔ o.HasLastingState) ∧
      ∀ read, ofJson o.toJson = .ok read →
        (o.HasLastingState ∨ o.status = .running →
          ∀ (store : Store) channel task worker,
            store.finish channel task worker read = store.finish channel task worker o) ∧
        ((∀ calls task worker,
            let store := (Store.initial 0).play .standard calls
            store.finish .standard task worker read = store.finish .standard task worker o) →
          o.HasLastingState ∨ o.status = .running) := by
  refine ⟨o.toOption_ofJson_toJson, o.ofJson_toJson_eq_self_iff,
    fun read h => ⟨fun hlasts => ?_, ?_⟩⟩
  · exact Store.finish_congr ((alike_read_iff h).mpr hlasts)
  · exact fun hsame => (alike_read_iff h).mp (Store.alike_of_finish hsame)

example :
    let outcome : Outcome := ⟨some (.array [.null]), .failed, some ""⟩
    (ofJson outcome.toJson).toOption = some outcome := by
  decide +kernel

/-- The outcome by which a task ends in `null` is read as one that keeps the state of the task, so
that a store is left in another state by it. A marked state is read as the value of the text in
it. -/
theorem null_and_mark_reported :
    let null := completedWith .null
    let marked := completedWith (.object [(Json.mark, .string "[1, 2]")])
    let store := (Store.initial 0).play .standard (Store.given Json.emptyObject)
    let left outcome :=
      (store.finish .standard 1 "worker" outcome).store.database.rows.map Row.state
    ofJson null.toJson = .ok completed ∧ ofJson null.toJson ≠ .ok null ∧
      left null = [.null] ∧ left completed = [Json.emptyObject] ∧
      ofJson marked.toJson = .ok (completedWith (.array [.int 1, .int 2])) ∧
      ofJson marked.toJson ≠ .ok marked := by
  intro null marked store left
  have hnull : ofJson null.toJson = .ok completed := ofJson_toJson_eq_iff.mpr ⟨none, rfl, rfl⟩
  have hmarked : ofJson marked.toJson = .ok (completedWith (.array [.int 1, .int 2])) :=
    ofJson_toJson_eq_iff.mpr ⟨some (.array [.int 1, .int 2]), by decide +kernel, rfl⟩
  have hkept : completed ≠ null := by decide
  have hresolved : completedWith (.array [.int 1, .int 2]) ≠ marked := by decide
  refine ⟨hnull, fun hsame => ?_, by decide +kernel, by decide +kernel, hmarked, fun hsame => ?_⟩
  · exact hkept (Except.ok.inj (hnull.symm.trans hsame))
  · exact hresolved (Except.ok.inj (hmarked.symm.trans hsame))

end LeaseQueue.Outcome
