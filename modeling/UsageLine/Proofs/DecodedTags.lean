import UsageLine.Proofs.Tag.Gathering

/-!
# Decoded tags

A value stores a tag as an object, which may hold other members too and may
leave out the options, or as a list of the six fields in order.  Tags are
decoded from such values and from no others, and the same tag is read from every
compact text of the value, whatever the order of members in it.
-/

namespace UsageLine

namespace Json

/-! ## What values store -/

/-- How the options of a tag are stored: as a value, or not at all if there are
none. -/
inductive StoresOptions : Option Json → Option (List Text) → Prop
  | absent : StoresOptions none none
  | present (options : Option (List Text)) :
      StoresOptions (some (ofOptions options)) options

theorem storesOptions_iff {value? : Option Json} {options : Option (List Text)} :
    StoresOptions value? options ↔
      value? = some (ofOptions options) ∨ value? = none ∧ options = none := by
  constructor
  · rintro (_ | _)
    · exact .inr ⟨rfl, rfl⟩
    · exact .inl rfl
  · rintro (rfl | ⟨rfl, rfl⟩)
    · exact .present options
    · exact .absent

/-- Each field has the value that stores it. -/
structure StoresFields (value? : Field → Option Json) (tag : Tag) : Prop where
  name : value? .name = some (.text tag.name)
  kind : value? .kind = some (.text tag.kind)
  required : value? .required = some (.bool tag.required)
  rest : value? .rest = some (.bool tag.rest)
  options : StoresOptions (value? .options) tag.options
  literal : value? .literal = some (.bool tag.literal)

/-- A value stores a tag as an object, whose other members do not matter, or as a
list of its fields in order. -/
inductive Stores : Json → Tag → Prop
  | object {members : List (Text × Json)} {tag : Tag}
      (fields : StoresFields (fun field => member? field.key members) tag) :
      Stores (.object members) tag
  | list (tag : Tag) :
      Stores (.list [.text tag.name, .text tag.kind, .bool tag.required,
        .bool tag.rest, ofOptions tag.options, .bool tag.literal]) tag

end Json

/-! ## Decoding from values -/

namespace Draft

open Json

variable {draft last : Draft} {tag : Tag}

theorem need_bind_iff {α β : Type} {field : Field} {value? : Option α}
    {f : α → Except DecodeError β} {result : β} :
    (need field value? >>= f) = .ok result ↔
      ∃ value, value? = some value ∧ f value = .ok result := by
  cases value? with
  | none => exact ⟨nofun, nofun⟩
  | some value =>
      constructor
      · exact fun done => ⟨value, rfl, done⟩
      · rintro ⟨_, ⟨⟩, done⟩
        exact done

theorem storesOptions_known_iff {known : Option (Option (List Text))}
    {options : Option (List Text)} :
    StoresOptions (known.map ofOptions) options ↔ known.join = options := by
  cases known with
  | none => simp [storesOptions_iff, eq_comm]
  | some known => simp [storesOptions_iff, ofOptions_injective.eq_iff]

theorem exists_of_storesOptions {value? : Option Json}
    {options : Option (List Text)} (stored : StoresOptions value? options) :
    ∃ known : Option (Option (List Text)), known.map ofOptions = value? := by
  cases stored with
  | absent => exact ⟨none, rfl⟩
  | present options => exact ⟨some options, rfl⟩

theorem filled_ofOptions (draft : Draft) (options : Option (List Text)) :
    draft.Filled .options (ofOptions options) { draft with options := some options } := by
  cases options with
  | none => exact .noOptions
  | some texts => exact .options texts

theorem eq_some_of_map {α : Type} {f : α → Json} (injective : Function.Injective f)
    {known : Option α} {value : α} (same : known.map f = some (f value)) :
    known = some value := by
  obtain ⟨found, knows, alike⟩ := Option.map_eq_some_iff.mp same
  rw [knows, injective alike]

theorem complete_iff : draft.complete = .ok tag ↔ StoresFields draft.value? tag := by
  simp only [complete, need_bind_iff]
  constructor
  · rintro ⟨name, hasName, kind, hasKind, required, hasRequired, rest, hasRest,
      literal, hasLiteral, done⟩
    cases done
    exact
      { name := congrArg (Option.map Json.text) hasName
        kind := congrArg (Option.map Json.text) hasKind
        required := congrArg (Option.map Json.bool) hasRequired
        rest := congrArg (Option.map Json.bool) hasRest
        options := storesOptions_known_iff.mpr rfl
        literal := congrArg (Option.map Json.bool) hasLiteral }
  · rintro ⟨name, kind, required, rest, options, literal⟩
    have texts : Function.Injective Json.text := fun _ _ => Json.text.inj
    have bools : Function.Injective Json.bool := fun _ _ => Json.bool.inj
    refine ⟨_, eq_some_of_map texts name, _, eq_some_of_map texts kind,
      _, eq_some_of_map bools required, _, eq_some_of_map bools rest,
      _, eq_some_of_map bools literal, ?_⟩
    rw [storesOptions_known_iff.mp options]
    rfl

theorem exists_of_storesFields {value? : Field → Option Json}
    (stored : StoresFields value? tag) :
    ∃ draft : Draft, ∀ field, draft.value? field = value? field := by
  obtain ⟨name, kind, required, rest, options, literal⟩ := stored
  obtain ⟨known, knows⟩ := exists_of_storesOptions options
  refine ⟨{ ofTag tag with options := known }, fun field => ?_⟩
  cases field with
  | name => exact name.symm
  | kind => exact kind.symm
  | required => exact required.symm
  | rest => exact rest.symm
  | options => exact knows
  | literal => exact literal.symm

end Draft

namespace Tag

open Json

variable {members : List (Text × Json)} {items : List Json} {tag : Tag}

theorem ofJson_object_iff_stores :
    ofJson (.object members) = .ok tag ↔ (Json.object members).Stores tag := by
  rw [ofJson_object_iff]
  simp only [Draft.setMembers_byKey_iff, Draft.complete_iff]
  constructor
  · rintro ⟨draft, known, stored⟩
    rw [funext known] at stored
    exact .object stored
  · rintro ⟨stored⟩
    obtain ⟨draft, known⟩ := Draft.exists_of_storesFields stored
    refine ⟨draft, known, ?_⟩
    rw [funext known]
    exact stored

theorem fills_inOrder (tag : Tag) :
    Draft.Fills {} Field.inOrder
      [.text tag.name, .text tag.kind, .bool tag.required, .bool tag.rest,
        ofOptions tag.options, .bool tag.literal] (.ofTag tag) :=
  .cons (.name tag.name) <| .cons (.kind tag.kind) <|
    .cons (.required tag.required) <| .cons (.rest tag.rest) <|
    .cons (Draft.filled_ofOptions _ tag.options) <|
    .cons (.literal tag.literal) (.nil _)

theorem ofJson_list_iff_stores :
    ofJson (.list items) = .ok tag ↔ (Json.list items).Stores tag := by
  rw [ofJson_list_iff]
  constructor
  · rintro ⟨draft, fills, completes⟩
    obtain ⟨name, kind, required, rest, options, literal⟩ :=
      Draft.complete_iff.mp completes
    have known := Draft.map_value?_of_fills fills (by decide)
      (Draft.length_of_fills fills (by decide))
    simp only [Field.inOrder, List.map_cons, List.map_nil, name, kind, required,
      rest, literal] at known
    rcases storesOptions_iff.mp options with present | ⟨absent, -⟩
    · rw [present] at known
      have same : [_, _, _, _, _, _] = items :=
        (List.map_inj_right fun _ _ => Option.some.inj).mp known
      rw [← same]
      exact .list tag
    · -- Every item is a value, so none stands for the options.
      have item : none ∈ items.map some := by
        rw [← known, absent]
        simp
      simp at item
  · rintro ⟨⟩
    exact ⟨.ofTag tag, fills_inOrder tag, Draft.complete_ofTag tag⟩

/-- A tag is decoded from the values that store it and from no others. -/
theorem ofJson_iff_stores {value : Json} :
    ofJson value = .ok tag ↔ value.Stores tag := by
  cases value with
  | object => exact ofJson_object_iff_stores
  | list => exact ofJson_list_iff_stores
  | null | bool | number | text => exact ⟨nofun, nofun⟩

end Tag

/-! ## What is stored in any order -/

namespace Json

variable {value written : Json} {tag : Tag}

theorem fixed_ofOptions (options : Option (List Text)) :
    (ofOptions options).Fixed := by
  cases options with
  | none => exact @fixed_of_simple .null (by simp [shape])
  | some texts =>
      refine fixed_list fun item mem => ?_
      obtain ⟨t, -, rfl⟩ := List.mem_map.mp mem
      exact fixed_text t

theorem stores_list_iff {items : List Json} :
    (Json.list items).Stores tag ↔
      items = [.text tag.name, .text tag.kind, .bool tag.required,
        .bool tag.rest, ofOptions tag.options, .bool tag.literal] := by
  constructor
  · rintro ⟨⟩
    rfl
  · rintro rfl
    exact .list tag

theorem StoresFields.congr {value? other? : Field → Option Json}
    (absent : ∀ field, value? field = none ↔ other? field = none)
    (present : ∀ {value : Json} field, value.Fixed →
      (value? field = some value ↔ other? field = some value))
    (stored : StoresFields value? tag) : StoresFields other? tag where
  name := (present .name (fixed_text tag.name)).mp stored.name
  kind := (present .kind (fixed_text tag.kind)).mp stored.kind
  required := (present .required (fixed_bool tag.required)).mp stored.required
  rest := (present .rest (fixed_bool tag.rest)).mp stored.rest
  options := by
    have options := storesOptions_iff.mp stored.options
    rw [present .options (fixed_ofOptions tag.options), absent] at options
    exact storesOptions_iff.mpr options
  literal := (present .literal (fixed_bool tag.literal)).mp stored.literal

theorem stores_iff_of_rearranged (distinct : value.KeysDistinct)
    (rearranged : value.Rearranged written) : value.Stores tag ↔ written.Stores tag := by
  cases value with
  | list items =>
      cases rearranged with
      | same => exact Iff.rfl
      | list each =>
          rw [stores_list_iff, stores_list_iff, eq_iff_of_forall_fixed each]
          simp only [List.forall_mem_cons, fixed_text, fixed_bool,
            fixed_ofOptions, true_and]
          exact nofun
  | object members =>
      obtain ⟨others, rfl⟩ := rearranged.exists_object
      have absent (field : Field) : member? field.key members = none ↔
          member? field.key others = none :=
        rearranged.member?_eq_none_iff
      have present {value : Json} (field : Field) (fixed : value.Fixed) :
          member? field.key members = some value ↔
            member? field.key others = some value :=
        fixed.member?_iff distinct rearranged
      constructor
      · rintro ⟨stored⟩
        exact .object (stored.congr absent present)
      · rintro ⟨stored⟩
        exact .object (stored.congr (fun field => (absent field).symm)
          fun field fixed => (present field fixed).symm)
  | null | bool | number | text =>
      cases rearranged
      exact Iff.rfl

end Json

/-! ## Decoding from texts -/

/-- A tag is read from the compact text of a value if and only if the value
stores it. -/
theorem Tag.ofJsonText_compact_iff {value : Json} {tag : Tag}
    (distinct : value.KeysDistinct) :
    ofJsonText value.compact = .ok tag ↔ value.Stores tag := by
  rw [← ofJson_iff_stores]
  cases value with
  | list => exact ofJsonText_list_iff
  | object => exact ofJsonText_object_iff_ofJson distinct
  | null | bool | number | text =>
      constructor
      · exact fun read =>
          absurd read (ofJsonText_ne_of_simple (by simp [Json.shape]) tag)
      · intro decoded
        cases decoded

end UsageLine
