/-
A task is read from its JSON.

* `Kind.ofJson_name`, `Kind.ofJson_text`, `Kind.ofJson_ofOption`: fields are read as they are
  written;
* `Task.IsNumbered`: the numbers of a task have 64 bits;
* `Task.ofJson_items`, `Task.toOption_ofJson_toJson`: a task is read from the array of its values,
  and alike from its object;
* `Task.decoded_iff`: it is the same task if and only if no object in its state is marked.
-/
import LeaseQueue.Proofs.Json.Embedded
import LeaseQueue.Proofs.Record.Written
import LeaseQueue.Proofs.Time.Written
import LeaseQueue.Task.Codec

namespace LeaseQueue

/-! ### Fields -/

namespace Kind

lemma ofJson_name (status : Status) : Kind.status.ofJson (.string status.name) = .ok status := by
  change statusOf status.name = .ok status
  rw [statusOf, Status.ofName?_name]

lemma ofJson_text (time : Timestamp) : Kind.time.ofJson (.string time.text) = .ok time := by
  change timestampOf time.text = .ok time
  rw [timestampOf, Timestamp.read?_text]

/-- An integer of 64 bits. -/
def IsWord (n : Int) : Prop := Text.minInt64 ≤ n ∧ n ≤ Text.maxInt64

instance (n : Int) : Decidable (IsWord n) := inferInstanceAs (Decidable (_ ∧ _))

lemma ofJson_int {n : Int} (h : IsWord n) : Kind.integer.ofJson (.int n) = .ok n :=
  if_pos h

/-- An optional value is read, if its kind is not written as `null`. -/
lemma ofJson_ofOption {kind : Kind} {write : kind.Value → Json} {value : Option kind.Value}
    (h : ∀ v ∈ value, write v ≠ .null ∧ kind.ofJson (write v) = .ok v) :
    (Kind.optional kind).ofJson (.ofOption write value) = .ok value := by
  cases value with
  | none => rfl
  | some v =>
      obtain ⟨hnull, hread⟩ := h v rfl
      rw [Json.ofOption]
      cases hwritten : write v with
      | null => exact absurd hwritten hnull
      | bool | int | double | string | array | object =>
          rw [hwritten] at hread
          exact congrArg (Except.map some) hread

end Kind

namespace Task

/-- The numbers of a task and of its parent are integers of 64 bits. -/
structure IsNumbered (t : Task) : Prop where
  id : Kind.IsWord t.id
  parent : ∀ parent ∈ t.parent, Kind.IsWord parent

/-- The values of the fields of a task, in order. -/
def items (t : Task) : List Json := t.fields.map Prod.snd

/-- From the array of its values a task is read with the texts in its state resolved. -/
lemma ofJson_items {t : Task} (h : t.IsNumbered) :
    ofJson (.array t.items) = t.state.resolve.map fun state => { t with state } := by
  have hid := Kind.ofJson_int h.id
  have htaskType : Kind.string.ofJson (.string t.taskType) = .ok t.taskType := rfl
  have hstate : Kind.json.ofJson t.state = t.state.resolve := rfl
  have hstatus := Kind.ofJson_name t.status
  have hworker : (Kind.optional .string).ofJson (.ofOption .string t.worker) = .ok t.worker :=
    Kind.ofJson_ofOption fun _ _ => ⟨nofun, rfl⟩
  have hleaseExpires : (Kind.optional .time).ofJson
      (.ofOption (fun time => .string time.text) t.leaseExpires) = .ok t.leaseExpires :=
    Kind.ofJson_ofOption fun time _ => ⟨nofun, Kind.ofJson_text time⟩
  have herror : (Kind.optional .string).ofJson (.ofOption .string t.error) = .ok t.error :=
    Kind.ofJson_ofOption fun _ _ => ⟨nofun, rfl⟩
  have hparent : (Kind.optional .integer).ofJson (.ofOption .int t.parent) = .ok t.parent :=
    Kind.ofJson_ofOption fun parent hmem => ⟨nofun, Kind.ofJson_int (h.parent parent hmem)⟩
  have hcreated := Kind.ofJson_text t.created
  have hupdated := Kind.ofJson_text t.updated
  simp only [ofJson, Shape.ofJson, shape, Field.required, Field.optional, items, fields,
    List.map_cons, List.map_nil, Shape.ofItems, hid, htaskType, hstate, hstatus, hworker,
    hleaseExpires, herror, hparent, hcreated, hupdated]
  cases t.state.resolve <;> rfl

/-- A task is read alike from the array of its values and from its object. -/
lemma toOption_ofJson_toJson (t : Task) :
    (ofJson t.toJson).toOption = (ofJson (.array t.items)).toOption := by
  have hnames : t.fields.map Prod.fst = shape.fields.map Field.name := rfl
  rw [ofJson, ofJson, toOption_map, toOption_map, toJson,
    Shape.ofJson_ofEntries shape hnames (by decide)]
  rfl

/-- A task is read from its object and from the array of its values, with the texts that are
embedded in its state resolved. It is the same task if and only if no object in its state starts
with the mark. -/
theorem decoded_iff {t : Task} (h : t.IsNumbered) :
    (ofJson t.toJson).toOption = t.state.resolve.toOption.map (fun state => { t with state }) ∧
      ofJson (.array t.items) = t.state.resolve.map (fun state => { t with state }) ∧
      (ofJson t.toJson = .ok t ↔ t.state.Unmarked) ∧
      (ofJson (.array t.items) = .ok t ↔ t.state.Unmarked) := by
  have hitems := ofJson_items h
  have hobject : (ofJson t.toJson).toOption =
      t.state.resolve.toOption.map fun state => { t with state } := by
    rw [t.toOption_ofJson_toJson, hitems, toOption_map]
  have hself : (t.state.resolve.toOption.map fun state => { t with state }) = some t ↔
      t.state.Unmarked := by
    rw [← Json.resolve_eq_self_iff, ← toOption_eq_some_iff, Option.map_eq_some_iff]
    constructor
    · rintro ⟨state, hstate, hsame⟩
      rw [hstate, ← hsame]
    · exact fun hstate => ⟨t.state, hstate, rfl⟩
  refine ⟨hobject, hitems, ?_, ?_⟩
  · rw [← toOption_eq_some_iff, hobject, hself]
  · rw [← toOption_eq_some_iff, hitems, toOption_map, hself]

/-- A task at the edges: the greatest number and the least one, years before 0 and after 9999, and
leap seconds with nine digits and with none. -/
def bordering : Task where
  id := 9223372036854775807
  taskType := ""
  state := .object [("$", .array [.null, .double (.ofNat 1), .string "é"])]
  status := .running
  worker := some "a\"b"
  leaseExpires := some
    ⟨⟨262142, 12, 31, by decide, by decide, by decide⟩, 23, 59, 59, 1999999999, by decide,
      by decide, by decide, by decide⟩
  error := none
  parent := some (-9223372036854775808)
  created := ⟨⟨-1, 2, 28, by decide, by decide, by decide⟩, 0, 0, 0, 120000000, by decide,
    by decide, by decide, by decide⟩
  updated := ⟨⟨10000, 1, 1, by decide, by decide, by decide⟩, 12, 5, 59, 1000000000, by decide,
    by decide, by decide, by decide⟩

/-- It is read from its object and from the array of its values. -/
theorem bordering_decoded :
    bordering.IsNumbered ∧ bordering.state.Unmarked ∧
      ofJson bordering.toJson = .ok bordering ∧
      ofJson (.array bordering.items) = .ok bordering := by
  have h : bordering.IsNumbered := ⟨by decide, by decide⟩
  have hstate : bordering.state.Unmarked := by
    refine .object (by decide) fun entry hmem => ?_
    cases List.mem_singleton.mp hmem
    refine .array fun item hmem => ?_
    simp only [List.mem_cons, List.not_mem_nil, or_false] at hmem
    rcases hmem with rfl | rfl | rfl
    · exact .null
    · exact .double _
    · exact .string _
  obtain ⟨-, -, hobject, harray⟩ := decoded_iff h
  exact ⟨h, hstate, hobject.mpr hstate, harray.mpr hstate⟩

/-- A state that is an object of the mark is read as the value of the text in it. -/
theorem marked_decoded :
    let t : Task := { bordering with state := .object [(Json.mark, .string "[1, 2]")] }
    t.IsNumbered ∧ ofJson t.toJson = .ok { t with state := .array [.int 1, .int 2] } ∧
      ofJson t.toJson ≠ .ok t := by
  intro t
  have h : t.IsNumbered := ⟨by decide, by decide⟩
  have hresolve : t.state.resolve.toOption = some (.array [.int 1, .int 2]) := by decide +kernel
  have hread : ofJson t.toJson = .ok { t with state := .array [.int 1, .int 2] } := by
    rw [← toOption_eq_some_iff, t.toOption_ofJson_toJson, ofJson_items h, toOption_map, hresolve]
    rfl
  refine ⟨h, hread, fun hsame => ?_⟩
  have hstate := congrArg Task.state (Except.ok.inj (hread.symm.trans hsame))
  cases hstate

end Task
end LeaseQueue
