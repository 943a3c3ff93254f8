import UsageLine.Proofs.Json.Members
import UsageLine.Proofs.Tag.Compact

/-!
# What a draft knows

A draft is told by the value that it knows of each field.  The items of a list
are known in their order.  Of an object it does not matter in which order fields
are filled in: its members give the same draft as they come in a text and as
they are visited by key.
-/

namespace UsageLine

theorem Field.key_injective : Function.Injective Field.key := by
  intro field other same
  have found := Field.ofKey?_key field
  rw [same, Field.ofKey?_key] at found
  exact (Option.some.inj found).symm

theorem Field.mem_byKey (field : Field) : field ∈ Field.byKey := by
  cases field <;> decide

namespace Json

/-- The options of a tag as a value, which says that there are none if so. -/
def ofOptions : Option (List Text) → Json
  | none => .null
  | some texts => ofTexts texts

theorem ofTexts_injective : Function.Injective ofTexts := by
  intro texts others same
  exact (List.map_inj_right fun _ _ => Json.text.inj).mp (Json.list.inj same)

theorem ofOptions_injective : Function.Injective ofOptions := by
  intro options others same
  cases options with
  | none =>
      cases others with
      | none => rfl
      | some texts => cases same
  | some texts =>
      cases others with
      | none => cases same
      | some others => rw [ofTexts_injective same]

end Json

namespace Draft

open Json

variable {draft next last : Draft} {field : Field} {value : Json}

/-! ## Fields -/

def value? (draft : Draft) : Field → Option Json
  | .name => draft.name.map .text
  | .kind => draft.kind.map .text
  | .required => draft.required.map .bool
  | .rest => draft.rest.map .bool
  | .options => draft.options.map ofOptions
  | .literal => draft.literal.map .bool

theorem has_eq (draft : Draft) (field : Field) :
    draft.has field = (draft.value? field).isSome := by
  cases field <;> simp [has, value?]

/-- A draft is told by what it knows. -/
theorem ext_of_value? {other : Draft}
    (same : ∀ field, draft.value? field = other.value? field) : draft = other := by
  have texts : Function.Injective (Option.map Json.text) :=
    Option.map_injective fun _ _ => Json.text.inj
  have bools : Function.Injective (Option.map Json.bool) :=
    Option.map_injective fun _ _ => Json.bool.inj
  have options : Function.Injective (Option.map ofOptions) :=
    Option.map_injective ofOptions_injective
  cases draft
  cases other
  congr 1
  · exact texts (same .name)
  · exact texts (same .kind)
  · exact bools (same .required)
  · exact bools (same .rest)
  · exact options (same .options)
  · exact bools (same .literal)

theorem value?_of_filled (filled : draft.Filled field value next) (other : Field) :
    next.value? other = if other = field then some value else draft.value? other := by
  cases filled <;> cases other <;> rfl

/-- A value that one draft knows of a field fills it in for every draft. -/
theorem exists_filled (known : draft.value? field = some value) (other : Draft) :
    ∃ next, other.Filled field value next := by
  cases field with
  | name =>
      obtain ⟨t, -, rfl⟩ := Option.map_eq_some_iff.mp known
      exact ⟨_, .name t⟩
  | kind =>
      obtain ⟨t, -, rfl⟩ := Option.map_eq_some_iff.mp known
      exact ⟨_, .kind t⟩
  | required =>
      obtain ⟨b, -, rfl⟩ := Option.map_eq_some_iff.mp known
      exact ⟨_, .required b⟩
  | rest =>
      obtain ⟨b, -, rfl⟩ := Option.map_eq_some_iff.mp known
      exact ⟨_, .rest b⟩
  | literal =>
      obtain ⟨b, -, rfl⟩ := Option.map_eq_some_iff.mp known
      exact ⟨_, .literal b⟩
  | options =>
      obtain ⟨options, -, rfl⟩ := Option.map_eq_some_iff.mp known
      cases options with
      | none => exact ⟨_, .noOptions⟩
      | some texts => exact ⟨_, .options texts⟩

/-! ## Items -/

section Items

variable {fields : List Field} {items : List Json}

theorem length_of_fills (fills : Fills draft fields items last)
    (needed : fields.getLast? ≠ some .options) : items.length = fields.length := by
  induction fills with
  | nil => rfl
  | @passed draft last fields _ ih =>
      cases fields with
      | nil => exact absurd rfl needed
      | cons => cases ih (by rwa [List.getLast?_cons_cons] at needed)
  | @cons draft next last field fields item more _ fills ih =>
      cases fields with
      | nil =>
          obtain ⟨rfl, -⟩ := fills_nil_iff.mp fills
          rfl
      | cons =>
          rw [List.length_cons, ih (by rwa [List.getLast?_cons_cons] at needed),
            ← List.length_cons]

theorem value?_of_fills (fills : Fills draft fields items last)
    (other : field ∉ fields) : last.value? field = draft.value? field := by
  induction fills with
  | nil => rfl
  | passed _ ih => exact ih fun mem => other (List.mem_cons_of_mem _ mem)
  | cons filled _ ih =>
      rw [List.mem_cons, not_or] at other
      rw [ih other.2, value?_of_filled filled, if_neg other.1]

/-- The items of a list are what is known of the fields, one for each in turn. -/
theorem map_value?_of_fills (fills : Fills draft fields items last)
    (distinct : fields.Nodup) (long : items.length = fields.length) :
    fields.map last.value? = items.map some := by
  induction fills with
  | nil => rfl
  | passed => cases long
  | cons filled fills ih =>
      rw [List.nodup_cons] at distinct
      rw [List.map_cons, List.map_cons, ih distinct.2 (Nat.succ.inj long),
        value?_of_fills fills distinct.1, value?_of_filled filled, if_pos rfl]

end Items

/-! ## Members -/

theorem gains_field_iff :
    draft.Gains (field.key, value) next ↔
      draft.value? field = none ∧ draft.Filled field value next := by
  have fresh : draft.value? field = none ↔ draft.has field = false := by
    rw [has_eq, Option.isSome_eq_false_iff, Option.isNone_iff_eq_none]
  rw [fresh]
  constructor
  · intro gains
    generalize named : field.key = key at gains
    cases gains with
    | field fresh filled =>
        obtain rfl := Field.key_injective named
        exact ⟨fresh, filled⟩
    | other unknown =>
        rw [← named, Field.ofKey?_key] at unknown
        cases unknown
  · rintro ⟨fresh, filled⟩
    exact .field fresh filled

theorem gains_other_iff {key : Text} (unknown : Field.ofKey? key = none) :
    draft.Gains (key, value) next ↔ next = draft := by
  constructor
  · intro gains
    cases gains with
    | field => rw [Field.ofKey?_key] at unknown; cases unknown
    | other => rfl
  · rintro rfl
    exact .other unknown value

theorem gathers_cons_iff {member : Text × Json} {more : List (Text × Json)} :
    Gathers draft (member :: more) last ↔
      ∃ next, draft.Gains member next ∧ Gathers next more last := by
  constructor
  · rintro (_ | ⟨gains, gathers⟩)
    exact ⟨_, gains, gathers⟩
  · rintro ⟨next, gains, gathers⟩
    exact .cons gains gathers

/-- A member that fills in a field counts as if it were known before. -/
theorem or_value?_of_filled (filled : draft.Filled field value next)
    (members : List (Text × Json)) (other : Field) :
    (member? other.key ((field.key, value) :: members)).or (draft.value? other) =
      (member? other.key members).or (next.value? other) := by
  rw [member?_cons, Option.or_assoc, value?_of_filled filled]
  by_cases same : other = field
  · subst same
    rw [if_pos rfl, if_pos rfl, Option.some_or]
  · have differs : field.key ≠ other.key :=
      fun alike => same (Field.key_injective alike).symm
    rw [if_neg differs, if_neg same, Option.none_or]

/-- The members of an object give a draft, as they come, what it does not know
yet, and nothing that it knows already. -/
theorem gathers_iff {members : List (Text × Json)}
    (distinct : (members.map Prod.fst).Nodup)
    (fresh : ∀ field : Field, field.key ∈ members.map Prod.fst →
      draft.value? field = none) :
    Gathers draft members last ↔
      ∀ field, last.value? field =
        (member? field.key members).or (draft.value? field) := by
  induction members generalizing draft with
  | nil =>
      constructor
      · rintro ⟨⟩ field
        rfl
      · intro known
        rw [ext_of_value? known]
        exact .nil draft
  | cons member more ih =>
      obtain ⟨key, value⟩ := member
      rw [List.map_cons, List.nodup_cons] at distinct
      have others (field : Field) (mem : field.key ∈ more.map Prod.fst) :
          draft.value? field = none :=
        fresh field (List.mem_cons_of_mem _ mem)
      rw [gathers_cons_iff]
      cases named : Field.ofKey? key with
      | none =>
          have differs (field : Field) : key ≠ field.key := by
            rintro rfl
            rw [Field.ofKey?_key] at named
            cases named
          simp only [gains_other_iff named, exists_eq_left, member?_cons,
            if_neg (differs _), Option.or_none, ih distinct.2 others]
      | some field =>
          obtain rfl := Field.key_of_ofKey? named
          have ready := fresh field List.mem_cons_self
          -- A key behind the first is another, so its field is not known yet.
          have later {next : Draft} (filled : draft.Filled field value next)
              (other : Field) (mem : other.key ∈ more.map Prod.fst) :
              next.value? other = none := by
            rw [value?_of_filled filled, if_neg, others other mem]
            rintro rfl
            exact distinct.1 mem
          constructor
          · rintro ⟨next, gains, gathers⟩ other
            have filled := (gains_field_iff.mp gains).2
            rw [or_value?_of_filled filled]
            exact (ih distinct.2 (later filled)).mp gathers other
          · intro known
            have found := known field
            rw [member?_cons, member?_eq_none_iff.mpr distinct.1, if_pos rfl] at found
            obtain ⟨next, filled⟩ := exists_filled found draft
            refine ⟨next, gains_field_iff.mpr ⟨ready, filled⟩, ?_⟩
            refine (ih distinct.2 (later filled)).mpr fun other => ?_
            rw [← or_value?_of_filled filled]
            exact known other

def asked (members : List (Text × Json)) (fields : List Field) (draft : Draft)
    (field : Field) : Option Json :=
  if field ∈ fields then (member? field.key members).or (draft.value? field)
  else draft.value? field

theorem asked_of_missing {members : List (Text × Json)}
    (missing : member? field.key members = none) (fields : List Field)
    (other : Field) :
    asked members (field :: fields) draft other = asked members fields draft other := by
  rw [asked, asked]
  by_cases same : other = field
  · subst same
    simp [missing]
  · simp [same]

theorem asked_of_filled {members : List (Text × Json)}
    (found : member? field.key members = some value)
    (filled : draft.Filled field value next) (fields : List Field)
    (other : Field) :
    asked members (field :: fields) draft other = asked members fields next other := by
  rw [asked, asked, value?_of_filled filled]
  by_cases same : other = field
  · subst same
    simp [found]
  · simp [same]

/-- The fields that an object is asked for are known from it, the others as
before. -/
theorem setMembers_iff {members : List (Text × Json)} {fields : List Field} :
    setMembers members fields draft = .ok last ↔
      ∀ field, last.value? field = asked members fields draft field := by
  induction fields generalizing draft with
  | nil =>
      constructor
      · rintro ⟨⟩ field
        exact (if_neg List.not_mem_nil).symm
      · intro known
        rw [ext_of_value? fun field => (known field).trans (if_neg List.not_mem_nil)]
        rfl
  | cons field fields ih =>
      cases found : member? field.key members with
      | none =>
          rw [setMembers_of_missing found, ih]
          simp only [asked_of_missing found]
      | some value =>
          constructor
          · intro sets
            cases set : draft.set value field with
            | error error =>
                rw [setMembers, found] at sets
                simp only [set] at sets
                cases sets
            | ok next =>
                have filled := set_eq_ok_iff.mp set
                rw [setMembers_of_filled found filled] at sets
                intro other
                rw [asked_of_filled found filled]
                exact ih.mp sets other
          · intro known
            have whole := known field
            rw [asked, if_pos List.mem_cons_self, found, Option.some_or] at whole
            obtain ⟨next, filled⟩ := exists_filled whole draft
            rw [setMembers_of_filled found filled, ih]
            intro other
            rw [← asked_of_filled found filled]
            exact known other

/-! ## Objects -/

/-- All fields of an object, as they are visited by key, give the draft that
knows what the object holds. -/
theorem setMembers_byKey_iff {members : List (Text × Json)} :
    setMembers members Field.byKey {} = .ok last ↔
      ∀ field : Field, last.value? field = member? field.key members := by
  rw [setMembers_iff]
  refine forall_congr' fun field => ?_
  have unknown : value? {} field = none := by cases field <;> rfl
  rw [asked, if_pos field.mem_byKey, unknown, Option.or_none]

theorem gathers_empty_iff {members : List (Text × Json)}
    (distinct : (members.map Prod.fst).Nodup) :
    Gathers {} members last ↔
      ∀ field : Field, last.value? field = member? field.key members := by
  have unknown (field : Field) : value? {} field = none := by cases field <;> rfl
  rw [gathers_iff distinct fun field _ => unknown field]
  simp only [unknown, Option.or_none]

end Draft

/-- Where no key of an object is repeated, the text of the object gives the tag
that the object stores. -/
theorem Tag.ofJsonText_object_iff_ofJson {members : List (Text × Json)} {tag : Tag}
    (distinct : (members.map Prod.fst).Nodup) :
    ofJsonText (Json.object members).compact = .ok tag ↔
      ofJson (.object members) = .ok tag := by
  rw [ofJsonText_object_iff, ofJson_object_iff]
  simp only [Draft.gathers_empty_iff distinct, Draft.setMembers_byKey_iff]

end UsageLine
