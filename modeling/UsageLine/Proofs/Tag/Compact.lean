import UsageLine.Proofs.Json.Skipping
import UsageLine.Proofs.Tag.Filling

/-!
# Drafts are filled from no other compact texts

What is read from the compact text of a value is read from the whole of it, and
the value itself gives the same.  So a list is read as its items ask for, and an
object as its members do one after the other, whatever stands in those that
name no field.
-/

namespace UsageLine

namespace Json

variable {value : Json} {rest behind : Text}

/-! ## Single values -/

/-- A number begins, without blanks, with a character that begins no other
value. -/
theorem skipBlank_number (n : Number) (rest : Text) :
    ∃ c cs, skipBlank ((Json.number n).compact ++ rest) = c :: cs ∧
      (c = '-' ∨ isDigit c = true) := by
  obtain ⟨c, cs, written, begins⟩ := n.signed_text.begins
  refine ⟨c, cs ++ rest, ?_, begins⟩
  rw [compact, written, List.cons_append, skipBlank_cons (isBlank_of_begins begins)]

theorem toText_eq_ok_iff {t : Text} : toText value = .ok t ↔ value = .text t := by
  constructor
  · intro hold
    cases value <;> cases hold
    rfl
  · rintro rfl
    rfl

theorem of_readText {t : Text}
    (read : readText (value.compact ++ rest) = .ok (t, behind)) :
    toText value = .ok t ∧ behind = rest := by
  cases value with
  | text s =>
      rw [compact, readText_quote] at read
      cases read
      exact ⟨rfl, rfl⟩
  | number n =>
      obtain ⟨c, cs, found, begins⟩ := skipBlank_number n rest
      rw [readText, found] at read
      simp only [if_neg (@ne_of_begins c '"' begins (by decide))] at read
      cases read
  | bool b => cases b <;> cases read
  | null | list | object => cases read

theorem of_readBool {b : Bool}
    (read : readBool (value.compact ++ rest) = .ok (b, behind)) :
    toBool value = .ok b ∧ behind = rest := by
  cases value with
  | bool b' =>
      rw [readBool_compact] at read
      cases read
      exact ⟨rfl, rfl⟩
  | number n =>
      obtain ⟨c, cs, found, begins⟩ := skipBlank_number n rest
      rw [readBool, found] at read
      simp only [if_neg (@ne_of_begins c 't' begins (by decide)),
        if_neg (@ne_of_begins c 'f' begins (by decide))] at read
      cases read
  | text | null | list | object => cases read

/-! ## Items in a row -/

/-- What stands behind an item: the bracket, or a comma and the other items. -/
def behindItem (rest : Text) : List Json → Text
  | [] => ']' :: rest
  | next :: more => ',' :: (compactItems (next :: more) ++ rest)

theorem compactItems_append (item : Json) (more : List Json) (rest : Text) :
    compactItems (item :: more) ++ rest = item.compact ++ behindItem rest more := by
  cases more <;> simp [compactItems, behindItem]

theorem of_readTexts {items : List Json} {texts : List Text}
    (some_items : items ≠ [])
    (read : readTexts (compactItems items ++ rest) = .ok (texts, behind)) :
    items = texts.map .text ∧ behind = rest := by
  induction items generalizing texts behind with
  | nil => exact absurd rfl some_items
  | cons item more ih =>
      rw [compactItems_append, readTexts_eq] at read
      split at read
      · cases read
      · rename_i first after taken
        obtain ⟨hold, rfl⟩ := of_readText taken
        obtain rfl := toText_eq_ok_iff.mp hold
        cases more with
        | nil =>
            cases read
            exact ⟨rfl, rfl⟩
        | cons next more =>
            rw [behindItem, skipBlank_cons rfl] at read
            simp only [show ¬ (',' = ']') by decide, if_false, if_true] at read
            split at read
            · cases read
            · rename_i others left inner
              obtain ⟨same, rfl⟩ := ih (List.cons_ne_nil next more) inner
              cases read
              rw [same]
              exact ⟨rfl, rfl⟩

theorem compact_begins (value : Json) :
    ∃ c cs, value.compact = c :: cs ∧ isBlank c = false ∧ c ≠ ']' := by
  cases value with
  | number n =>
      obtain ⟨c, cs, written, begins⟩ := n.signed_text.begins
      exact ⟨c, cs, written, isBlank_of_begins begins,
        ne_of_begins begins (by decide)⟩
  | bool b => cases b <;> exact ⟨_, _, rfl, rfl, by decide⟩
  | null | text | list | object => exact ⟨_, _, rfl, rfl, by decide⟩

theorem of_readOptions {options : Option (List Text)}
    (read : readOptions (value.compact ++ rest) = .ok (options, behind)) :
    toOptions value = .ok options ∧ behind = rest := by
  cases value with
  | null =>
      cases read
      exact ⟨rfl, rfl⟩
  | number n =>
      obtain ⟨c, cs, found, begins⟩ := skipBlank_number n rest
      rw [readOptions, found] at read
      simp only [if_neg (@ne_of_begins c 'n' begins (by decide)),
        if_neg (@ne_of_begins c '[' begins (by decide))] at read
      cases read
  | list items =>
      cases items with
      | nil =>
          cases read
          exact ⟨rfl, rfl⟩
      | cons item more =>
          rw [compact, List.cons_append, readOptions, skipBlank_cons rfl] at read
          simp only [show ¬ ('[' = 'n') by decide, if_false, if_true] at read
          obtain ⟨c, cs, written, solid, opens⟩ := compact_begins item
          have first : skipBlank (compactItems (item :: more) ++ rest) =
              compactItems (item :: more) ++ rest := by
            rw [compactItems_append, written, List.cons_append,
              skipBlank_cons solid]
          rw [first] at read
          split at read
          · rename_i closed
            rw [compactItems_append, written] at closed
            exact absurd (List.cons.inj closed).1 opens
          · obtain ⟨⟨texts, after⟩, taken, same⟩ := rest_of_map read
            obtain ⟨hold, rfl⟩ := of_readTexts (List.cons_ne_nil item more) taken
            cases same
            rw [toOptions, toTexts_eq_ok_iff.mpr hold]
            exact ⟨rfl, rfl⟩
  | bool b => cases b <;> cases read
  | text | object => cases read

end Json

namespace Draft

open Json

variable {draft next last : Draft} {field : Field} {rest behind : Text}

/-! ## Fields -/

theorem read_compact_iff {value : Json} :
    draft.read (value.compact ++ rest) field = .ok (next, behind) ↔
      draft.Filled field value next ∧ behind = rest := by
  constructor
  · intro read
    rw [← set_eq_ok_iff]
    cases field with
    | name | kind =>
        obtain ⟨⟨t, after⟩, taken, same⟩ := rest_of_map read
        obtain ⟨hold, rfl⟩ := of_readText taken
        cases same
        exact ⟨by rw [set, hold]; rfl, rfl⟩
    | required | rest | literal =>
        obtain ⟨⟨b, after⟩, taken, same⟩ := rest_of_map read
        obtain ⟨hold, rfl⟩ := of_readBool taken
        cases same
        exact ⟨by rw [set, hold]; rfl, rfl⟩
    | options =>
        obtain ⟨⟨options, after⟩, taken, same⟩ := rest_of_map read
        obtain ⟨hold, rfl⟩ := of_readOptions taken
        cases same
        exact ⟨by rw [set, hold]; rfl, rfl⟩
  · rintro ⟨filled, rfl⟩
    exact read_of_filled filled behind

/-! ## Lists -/

/-- What the items of a list do to a draft, one for each field in turn.  Where no
item is left the options are passed over. -/
inductive Fills : Draft → List Field → List Json → Draft → Prop
  | nil (draft : Draft) : Fills draft [] [] draft
  | passed {draft last : Draft} {fields : List Field}
      (fills : Fills draft fields [] last) : Fills draft (.options :: fields) [] last
  | cons {draft next last : Draft} {field : Field} {fields : List Field}
      {item : Json} {more : List Json} (filled : draft.Filled field item next)
      (fills : Fills next fields more last) :
      Fills draft (field :: fields) (item :: more) last

theorem fills_nil_iff {items : List Json} :
    Fills draft [] items last ↔ items = [] ∧ last = draft := by
  constructor
  · rintro ⟨⟩
    exact ⟨rfl, rfl⟩
  · rintro ⟨rfl, rfl⟩
    exact .nil last

theorem fills_cons_iff {fields : List Field} {item : Json} {more : List Json} :
    Fills draft (field :: fields) (item :: more) last ↔
      ∃ next, draft.Filled field item next ∧ Fills next fields more last := by
  constructor
  · rintro (_ | _ | ⟨filled, fills⟩)
    exact ⟨_, filled, fills⟩
  · rintro ⟨next, filled, fills⟩
    exact .cons filled fills

theorem fills_options_iff {fields : List Field} :
    Fills draft (.options :: fields) [] last ↔ Fills draft fields [] last := by
  constructor
  · rintro (_ | ⟨fills⟩)
    exact fills
  · exact .passed

theorem not_fills_of_short {fields : List Field} (needed : field ≠ .options) :
    ¬ Fills draft (field :: fields) [] last := by
  rintro (_ | _)
  exact needed rfl

theorem setItems_iff {index : Nat} {fields : List Field} {items : List Json} :
    setItems index fields items draft = .ok last ↔ Fills draft fields items last := by
  induction fields generalizing index items draft with
  | nil =>
      rw [fills_nil_iff]
      cases items with
      | nil => simp [setItems, eq_comm]
      | cons item more => simp [setItems]
  | cons field fields ih =>
      cases items with
      | nil =>
          cases field with
          | options => exact ih.trans fills_options_iff.symm
          | _ => exact ⟨nofun, fun fills => absurd fills (not_fills_of_short nofun)⟩
      | cons item more =>
          have onward : setItems index (field :: fields) (item :: more) draft =
              (draft.set item field).bind (setItems (index + 1) fields more) := by
            cases field <;> rfl
          rw [onward, fills_cons_iff]
          constructor
          · intro sets
            cases set : draft.set item field with
            | error error =>
                rw [set] at sets
                cases sets
            | ok next =>
                rw [set] at sets
                exact ⟨next, set_eq_ok_iff.mp set, ih.mp sets⟩
          · rintro ⟨next, filled, fills⟩
            rw [set_eq_ok_iff.mpr filled]
            exact ih.mpr fills

/-- The text at the next item, which is the first or stands behind another. -/
def atItem (rest : Text) (first : Bool) (items : List Json) : Text :=
  if first then compactItems items ++ rest else behindItem rest items

theorem nextItem?_atItem (rest : Text) (first : Bool) (items : List Json) :
    nextItem? first (atItem rest first items) =
      .ok (items.head?.map fun item => item.compact ++ behindItem rest items.tail) := by
  cases items with
  | nil => cases first <;> rfl
  | cons item more =>
      cases first with
      | true =>
          obtain ⟨c, cs, written, solid, opens⟩ := compact_begins item
          have found : atItem rest true (item :: more) =
              c :: (cs ++ behindItem rest more) := by
            rw [atItem, if_pos rfl, compactItems_append, written, List.cons_append]
          rw [found, nextItem?, skipBlank_cons solid]
          simp only [if_neg opens, if_true, List.head?_cons, Option.map_some,
            written, List.cons_append, List.tail_cons]
      | false =>
          rw [List.head?_cons, Option.map_some, List.tail_cons,
            ← compactItems_append]
          rfl

theorem atItem_nil (rest : Text) (first : Bool) :
    atItem rest first [] = ']' :: rest := by
  cases first <;> rfl

/-- Where no field is left the bracket must come, so no item may. -/
theorem readItems_nil_iff {index : Nat} {items : List Json} :
    readItems index [] draft (atItem rest (index == 0) items) =
        .ok (last, behind) ↔
      (items = [] ∧ last = draft) ∧ behind = rest := by
  cases items with
  | nil =>
      rw [atItem_nil, readItems, skipBlank_cons rfl]
      simp [eq_comm]
  | cons item more =>
      obtain ⟨c, cs, written, solid, opens⟩ :
          ∃ c cs, atItem rest (index == 0) (item :: more) = c :: cs ∧
            isBlank c = false ∧ c ≠ ']' := by
        cases index with
        | zero =>
            obtain ⟨c, cs, written, begins⟩ := compact_begins item
            refine ⟨c, cs ++ behindItem rest more, ?_, begins⟩
            rw [← List.cons_append, ← written, ← compactItems_append]
            rfl
        | succ index => exact ⟨',', _, rfl, rfl, by decide⟩
      rw [written, readItems, skipBlank_cons solid]
      simp [opens]

/-- Fields are read from the items of a list if and only if these fill them in. -/
theorem readItems_iff {index : Nat} {fields : List Field} {items : List Json} :
    readItems index fields draft (atItem rest (index == 0) items) =
        .ok (last, behind) ↔
      Fills draft fields items last ∧ behind = rest := by
  induction fields generalizing index items draft with
  | nil => rw [fills_nil_iff, readItems_nil_iff]
  | cons field fields ih =>
      rw [readItems, nextItem?_atItem]
      cases items with
      | nil =>
          have same := @ih draft (index + 1) []
          rw [atItem_nil] at same ⊢
          cases field with
          | options => exact same.trans (and_congr_left' fills_options_iff.symm)
          | _ =>
              refine ⟨nofun, fun both => ?_⟩
              exact absurd both.1 (not_fills_of_short nofun)
      | cons item more =>
          simp only [List.head?_cons, Option.map_some, List.tail_cons]
          rw [fills_cons_iff]
          constructor
          · intro read
            split at read
            · cases read
            · rename_i next after taken
              obtain ⟨filled, rfl⟩ := read_compact_iff.mp taken
              obtain ⟨fills, same⟩ := ih.mp read
              exact ⟨⟨next, filled, fills⟩, same⟩
          · rintro ⟨⟨next, filled, fills⟩, rfl⟩
            rw [read_of_filled filled]
            exact ih.mpr ⟨fills, rfl⟩

/-! ## Objects -/

theorem skips (member : Text × Json) : Skips member :=
  fun _ _ => skipValue_compact member.2

theorem gains_of_readMember {member : Text × Json} (ends : Ends rest)
    (read : draft.readMember (member.1.flatMap escape ++
      '"' :: ':' :: (member.2.compact ++ rest)) = .ok (next, behind)) :
    draft.Gains member next ∧ behind = rest := by
  obtain ⟨key, value⟩ := member
  have colon : readColon (':' :: (value.compact ++ rest)) =
      .ok (value.compact ++ rest) := rfl
  rw [readMember, readString_quote] at read
  cases known : Field.ofKey? key with
  | none =>
      simp only [known, Option.filter_none, colon, readValue,
        skips (key, value) known rest ends] at read
      cases read
      exact ⟨.other known value, rfl⟩
  | some field =>
      obtain rfl := Field.key_of_ofKey? known
      cases fresh : draft.has field with
      | true =>
          simp only [known, Option.filter_some, fresh] at read
          cases read
      | false =>
          simp only [known, Option.filter_some, fresh, colon, readValue] at read
          obtain ⟨filled, rfl⟩ := read_compact_iff.mp read
          exact ⟨.field fresh filled, rfl⟩

theorem gathers_of_readMembers {members : List (Text × Json)}
    (some_members : members ≠ [])
    (read : draft.readMembers (compactMembers members ++ rest) =
      .ok (last, behind)) :
    Gathers draft members last ∧ behind = rest := by
  induction members generalizing draft with
  | nil => exact absurd rfl some_members
  | cons member more ih =>
      cases more with
      | nil =>
          rw [compactMembers_one, readMembers_eq] at read
          split at read
          · cases read
          · rename_i next after taken
            obtain ⟨gains, rfl⟩ :=
              gains_of_readMember (ends_cons (by decide) rest) taken
            cases read
            exact ⟨.cons gains (.nil _), rfl⟩
      | cons following more =>
          rw [compactMembers_more, readMembers_eq] at read
          split at read
          · cases read
          · rename_i next after taken
            obtain ⟨gains, rfl⟩ :=
              gains_of_readMember (ends_cons (by decide) _) taken
            obtain ⟨gathers, same⟩ := ih (List.cons_ne_nil following more) read
            exact ⟨.cons gains gathers, same⟩

theorem readObject_iff {members : List (Text × Json)} :
    readObject (compactMembers members ++ rest) = .ok (last, behind) ↔
      Gathers {} members last ∧ behind = rest := by
  cases members with
  | nil =>
      constructor
      · intro read
        cases read
        exact ⟨.nil {}, rfl⟩
      · rintro ⟨⟨⟩, rfl⟩
        rfl
  | cons member more =>
      have some_members := List.cons_ne_nil member more
      obtain ⟨cs, quoted⟩ := compactMembers_begins some_members rest
      have read : readObject (compactMembers (member :: more) ++ rest) =
          readMembers {} (compactMembers (member :: more) ++ rest) := by
        rw [quoted]
        rfl
      rw [read]
      constructor
      · exact gathers_of_readMembers some_members
      · rintro ⟨gathers, rfl⟩
        exact readMembers_of_gathers gathers some_members
          (fun member _ => skips member) behind

theorem completed_eq_ok_iff {result : Except ReadError (Draft × Text)} {tag : Tag} :
    completed result = .ok (tag, rest) ↔
      ∃ draft, result = .ok (draft, rest) ∧ draft.complete = .ok tag := by
  constructor
  · intro done
    cases result with
    | error error => cases done
    | ok taken =>
        obtain ⟨draft, after⟩ := taken
        rw [completed] at done
        cases completes : draft.complete with
        | error error => rw [completes] at done; cases done
        | ok tag' =>
            rw [completes] at done
            cases done
            exact ⟨draft, rfl, completes⟩
  · rintro ⟨draft, rfl, completes⟩
    rw [completed, completes]

end Draft

namespace Tag

open Json

variable {items : List Json} {members : List (Text × Json)} {tag : Tag}

theorem ofJsonText_eq_ok_iff {cs : Text} :
    ofJsonText cs = .ok tag ↔
      ∃ rest, Tag.read cs = .ok (tag, rest) ∧ skipBlank rest = [] := by
  rw [ofJsonText]
  constructor
  · intro whole
    split at whole
    · cases whole
    · rename_i tag' rest read
      split at whole
      · rename_i blank
        cases whole
        exact ⟨rest, read, blank⟩
      · cases whole
  · rintro ⟨rest, read, blank⟩
    rw [read]
    exact if_pos blank

theorem filled_eq_ok_iff {result : Except DecodeError Draft} :
    (result.bind Draft.complete) = .ok tag ↔
      ∃ draft, result = .ok draft ∧ draft.complete = .ok tag := by
  cases result with
  | error error => exact ⟨nofun, nofun⟩
  | ok draft =>
      constructor
      · exact fun completes => ⟨draft, rfl, completes⟩
      · rintro ⟨_, ⟨⟩, completes⟩
        exact completes

theorem ofJson_list_iff :
    ofJson (.list items) = .ok tag ↔
      ∃ draft, Draft.Fills {} Field.inOrder items draft ∧
        draft.complete = .ok tag := by
  simp only [← @Draft.setItems_iff _ _ 0]
  exact filled_eq_ok_iff

theorem ofJson_object_iff :
    ofJson (.object members) = .ok tag ↔
      ∃ draft, Draft.setMembers members Field.byKey {} = .ok draft ∧
        draft.complete = .ok tag :=
  filled_eq_ok_iff

theorem read_list (items : List Json) :
    Tag.read (Json.list items).compact =
      Draft.completed (Draft.readItems 0 Field.inOrder {}
        (Draft.atItem [] true items)) := by
  rw [compact, Tag.read, skipBlank_cons rfl, Draft.atItem, if_pos rfl,
    List.append_nil]
  rfl

theorem read_object (members : List (Text × Json)) :
    Tag.read (Json.object members).compact =
      Draft.completed (Draft.readObject (compactMembers members ++ [])) := by
  rw [compact, Tag.read, skipBlank_cons rfl, List.append_nil]
  rfl

theorem ofJsonText_list_iff :
    ofJsonText (Json.list items).compact = .ok tag ↔
      ofJson (.list items) = .ok tag := by
  rw [ofJsonText_eq_ok_iff, ofJson_list_iff, read_list]
  constructor
  · rintro ⟨rest, read, -⟩
    obtain ⟨draft, read, completes⟩ := Draft.completed_eq_ok_iff.mp read
    exact ⟨draft, (Draft.readItems_iff.mp read).1, completes⟩
  · rintro ⟨draft, fills, completes⟩
    exact ⟨[], Draft.completed_eq_ok_iff.mpr
      ⟨draft, Draft.readItems_iff.mpr ⟨fills, rfl⟩, completes⟩, rfl⟩

/-- A tag is read from the compact text of an object if and only if its members
give all that the tag needs. -/
theorem ofJsonText_object_iff :
    ofJsonText (Json.object members).compact = .ok tag ↔
      ∃ draft, Draft.Gathers {} members draft ∧ draft.complete = .ok tag := by
  rw [ofJsonText_eq_ok_iff, read_object]
  constructor
  · rintro ⟨rest, read, -⟩
    obtain ⟨draft, read, completes⟩ := Draft.completed_eq_ok_iff.mp read
    exact ⟨draft, (Draft.readObject_iff.mp read).1, completes⟩
  · rintro ⟨draft, gathers, completes⟩
    exact ⟨[], Draft.completed_eq_ok_iff.mpr
      ⟨draft, Draft.readObject_iff.mpr ⟨gathers, rfl⟩, completes⟩, rfl⟩

theorem ofJsonText_ne_of_simple {value : Json}
    (simple : value.shape ≠ .list ∧ value.shape ≠ .object) (tag : Tag) :
    ofJsonText value.compact ≠ .ok tag := by
  intro whole
  cases value with
  | number n =>
      obtain ⟨rest, read, -⟩ := ofJsonText_eq_ok_iff.mp whole
      obtain ⟨c, cs, found, begins⟩ := skipBlank_number n []
      rw [List.append_nil] at found
      rw [Tag.read, found] at read
      simp only [if_neg (@ne_of_begins c '[' begins (by decide)),
        if_neg (@ne_of_begins c '{' begins (by decide))] at read
      cases read
  | bool b => cases b <;> cases whole
  | null | text => cases whole
  | list => exact simple.1 rfl
  | object => exact simple.2 rfl

end Tag

end UsageLine
