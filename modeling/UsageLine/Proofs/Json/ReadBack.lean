import UsageLine.Json.Compact
import UsageLine.Json.Reader

/-!
# Compact texts are read back

A reader that takes strings as they are quoted, and numbers as they are
written, takes every compact text: it makes of the text what the value asks
for, whatever is still open around it.  The reader that builds values builds the
value that was written, if there are no numbers in it.
-/

namespace UsageLine.Json

/-- What holds of a value if it holds of all that is in it holds of every
value. -/
theorem induction {motive : Json → Prop} (null : motive .null)
    (bool : ∀ value, motive (.bool value))
    (number : ∀ value, motive (.number value))
    (text : ∀ value, motive (.text value))
    (list : ∀ items, (∀ item ∈ items, motive item) → motive (.list items))
    (object : ∀ members, (∀ member ∈ members, motive member.2) →
      motive (.object members))
    (value : Json) : motive value := by
  match value with
  | .null => exact null
  | .bool value => exact bool value
  | .number value => exact number value
  | .text value => exact text value
  | .list items =>
      exact list items fun item mem =>
        induction null bool number text list object item
  | .object members =>
      exact object members fun member mem =>
        induction null bool number text list object member.2
termination_by sizeOf value
decreasing_by
  · have smaller := List.sizeOf_lt_of_mem mem
    simp only [Json.list.sizeOf_spec]
    omega
  · have smaller := List.sizeOf_lt_of_mem mem
    obtain ⟨key, value⟩ := member
    simp only [Json.object.sizeOf_spec, Prod.mk.sizeOf_spec] at smaller ⊢
    omega

/-! ## The numbers of a value -/

mutual

def numbers : Json → List Number
  | .number value => [value]
  | .list items => itemNumbers items
  | .object members => memberNumbers members
  | _ => []

def itemNumbers : List Json → List Number
  | [] => []
  | item :: rest => numbers item ++ itemNumbers rest

def memberNumbers : List (Text × Json) → List Number
  | [] => []
  | (_, value) :: rest => numbers value ++ memberNumbers rest

end

theorem mem_itemNumbers {n : Number} {item : Json} {items : List Json}
    (found : n ∈ numbers item) (mem : item ∈ items) : n ∈ itemNumbers items := by
  induction items with
  | nil => cases mem
  | cons first rest ih =>
      rw [itemNumbers, List.mem_append]
      rcases List.mem_cons.mp mem with rfl | later
      · exact .inl found
      · exact .inr (ih later)

theorem mem_memberNumbers {n : Number} {member : Text × Json}
    {members : List (Text × Json)} (found : n ∈ numbers member.2)
    (mem : member ∈ members) : n ∈ memberNumbers members := by
  induction members with
  | nil => cases mem
  | cons first rest ih =>
      rw [memberNumbers, List.mem_append]
      rcases List.mem_cons.mp mem with rfl | later
      · exact .inl found
      · exact .inr (ih later)

/-! ## What follows a value -/

/-- The text does not go on with the value before it. -/
def Ends (rest : Text) : Prop :=
  ∀ c ∈ rest.head?, c = ',' ∨ c = ']' ∨ c = '}'

theorem ends_nil : Ends [] := nofun

theorem ends_cons {c : Char} (ends : c = ',' ∨ c = ']' ∨ c = '}') (rest : Text) :
    Ends (c :: rest) := by
  rintro d ⟨⟩
  exact ends

theorem skipBlank_cons {c : Char} (solid : isBlank c = false) (cs : Text) :
    skipBlank (c :: cs) = c :: cs :=
  List.dropWhile_cons_of_neg (by simp [solid])

theorem compactMembers_begins {members : List (Text × Json)}
    (some_members : members ≠ []) (rest : Text) :
    ∃ cs, compactMembers members ++ rest = '"' :: cs := by
  match members with
  | [] => exact absurd rfl some_members
  | [(key, value)] => exact ⟨_, rfl⟩
  | (key, value) :: next :: more => exact ⟨_, rfl⟩

namespace Reader

variable {κ α : Type} (r : Reader κ α)

/-! ## What a reader makes of a value -/

section Making

variable (key : Text → κ) (number : Number → α)

mutual

/-- What a reader makes of a value, if keys and numbers are made so. -/
def make : Json → α
  | .null => r.null
  | .bool value => r.bool value
  | .number value => number value
  | .text value => r.text (key value)
  | .list items => r.list (makeItems items)
  | .object members => r.object (makeMembers members)

def makeItems : List Json → List α
  | [] => []
  | item :: rest => make item :: makeItems rest

def makeMembers : List (Text × Json) → List (κ × α)
  | [] => []
  | (name, value) :: rest => (key name, make value) :: makeMembers rest

end

end Making

/-! ## Single steps -/

variable {r}

theorem readIn_eq (outer : List (Frame κ α)) (cs : Text) :
    r.readIn outer cs =
      match skipBlank cs with
      | [] => .error .ended
      | c :: rest =>
          if c = '[' then r.readItems outer rest
          else if c = '{' then r.readMembers outer rest
          else
            match r.readScalar (c :: rest) with
            | .error fault => .error fault
            | .ok (value, rest) => r.readOn outer value rest := by
  rw [readIn]
  cases skipBlank cs with
  | nil => rfl
  | cons c rest =>
      simp only
      cases r.readScalar (c :: rest) <;> rfl

theorem readItems_close (outer : List (Frame κ α)) (cs : Text) :
    r.readItems outer (']' :: cs) = r.readOn outer (r.list []) cs := by
  rw [readItems]
  rfl

theorem readItems_of_solid {c : Char} (solid : isBlank c = false)
    (opens : c ≠ ']') (outer : List (Frame κ α)) (cs : Text) :
    r.readItems outer (c :: cs) = r.readIn (.list [] :: outer) (c :: cs) := by
  rw [readItems, skipBlank_cons solid]
  exact if_neg opens

theorem readMembers_close (outer : List (Frame κ α)) (cs : Text) :
    r.readMembers outer ('}' :: cs) = r.readOn outer (r.object []) cs := by
  rw [readMembers]
  rfl

theorem readMembers_quote (outer : List (Frame κ α)) (cs : Text) :
    r.readMembers outer ('"' :: cs) =
      match r.readKey ('"' :: cs) with
      | .error fault => .error fault
      | .ok (key, rest) => r.readIn (.object [] key :: outer) rest := by
  rw [readMembers, skipBlank_cons rfl]
  simp only [show ¬ ('"' = '}') by decide, if_false]
  cases r.readKey ('"' :: cs) <;> rfl

theorem readOn_list_eq (done : List α) (outer : List (Frame κ α)) (value : α)
    (cs : Text) :
    r.readOn (.list done :: outer) value cs =
      match skipBlank cs with
      | [] => .error .ended
      | c :: rest =>
          if c = ']' then r.readOn outer (r.list (done ++ [value])) rest
          else if c = ',' then r.readIn (.list (done ++ [value]) :: outer) rest
          else .error .malformed := by
  rw [readOn]
  cases skipBlank cs <;> rfl

theorem readOn_object_eq (done : List (κ × α)) (key : κ)
    (outer : List (Frame κ α)) (value : α) (cs : Text) :
    r.readOn (.object done key :: outer) value cs =
      match skipBlank cs with
      | [] => .error .ended
      | c :: rest =>
          if c = '}' then
            r.readOn outer (r.object (done ++ [(key, value)])) rest
          else if c = ',' then
            match r.readKey rest with
            | .error fault => .error fault
            | .ok (next, rest) =>
                r.readIn (.object (done ++ [(key, value)]) next :: outer) rest
          else .error .malformed := by
  rw [readOn]
  cases skipBlank cs with
  | nil => rfl
  | cons c rest =>
      simp only
      cases r.readKey rest <;> rfl

/-! ## Written values -/

variable (r)

/-- Wherever it is written, a value is read and the reader goes on behind it. -/
structure Takes (written : Text) (value : α) : Prop where
  begins : ∃ c cs, written = c :: cs ∧ isBlank c = false ∧ c ≠ ']'
  reads : ∀ outer rest, Ends rest →
    r.readIn outer (written ++ rest) = r.readOn outer value rest

variable {r}

theorem takes_of_readScalar {c : Char} {cs : Text} {value : α}
    (solid : isBlank c = false) (simple : c ∉ ['[', '{', ']'])
    (read : ∀ rest, Ends rest →
      r.readScalar (c :: cs ++ rest) = .ok (value, rest)) :
    r.Takes (c :: cs) value := by
  simp only [List.mem_cons, List.not_mem_nil, or_false, not_or] at simple
  refine ⟨⟨c, cs, rfl, solid, simple.2.2⟩, fun outer rest ends => ?_⟩
  rw [readIn_eq, List.cons_append, skipBlank_cons solid]
  simp only [if_neg simple.1, if_neg simple.2.1, ← List.cons_append,
    read rest ends]

section Strings

variable {key : Text → κ} {number : Number → α}

/-- Items that are taken one by one are taken in a row. -/
theorem reads_items {items : List Json}
    (takes : ∀ item ∈ items, r.Takes item.compact (r.make key number item))
    (some_items : items ≠ []) (done : List α) (outer : List (Frame κ α))
    (rest : Text) :
    r.readIn (.list done :: outer) (compactItems items ++ rest) =
      r.readOn outer (r.list (done ++ r.makeItems key number items)) rest := by
  induction items generalizing done with
  | nil => exact absurd rfl some_items
  | cons item more ih =>
      have first := takes item List.mem_cons_self
      cases more with
      | nil =>
          rw [compactItems, List.append_assoc, List.singleton_append,
            first.reads _ _ (ends_cons (by decide) rest), readOn_list_eq,
            skipBlank_cons rfl]
          rfl
      | cons next more =>
          rw [compactItems, List.append_assoc, List.cons_append,
            first.reads _ _ (ends_cons (by decide) _), readOn_list_eq,
            skipBlank_cons rfl]
          simp only [show ¬ (',' = ']') by decide, if_false, if_true]
          rw [ih (fun item mem => takes item (List.mem_cons_of_mem _ mem))
            (List.cons_ne_nil next more), List.append_assoc]
          rfl

theorem takes_list {items : List Json}
    (takes : ∀ item ∈ items, r.Takes item.compact (r.make key number item)) :
    r.Takes (compact (.list items)) (r.make key number (.list items)) := by
  refine ⟨⟨'[', _, rfl, rfl, by decide⟩, fun outer rest _ => ?_⟩
  rw [compact, List.cons_append, readIn_eq, skipBlank_cons rfl]
  simp only [if_true]
  cases items with
  | nil => exact readItems_close outer rest
  | cons item more =>
      -- The reader first looks whether the list is closed at once, so it
      -- matters how the first item begins.
      obtain ⟨c, cs, written, solid, opens⟩ :=
        (takes item List.mem_cons_self).begins
      have begins : ∃ cs, compactItems (item :: more) ++ rest = c :: cs := by
        cases more <;> exact ⟨_, by rw [compactItems, written]; rfl⟩
      obtain ⟨cs, begins⟩ := begins
      rw [begins, readItems_of_solid solid opens, ← begins,
        reads_items takes (List.cons_ne_nil item more)]
      rfl

variable (strings : ∀ t rest, r.string (t.flatMap escape ++ '"' :: rest) =
  .ok (key t, rest))
include strings

theorem readKey_quote (t cs : Text) :
    r.readKey (quote t ++ ':' :: cs) = .ok (key t, cs) := by
  have quoted : quote t ++ ':' :: cs =
      '"' :: (t.flatMap escape ++ '"' :: ':' :: cs) := by simp [quote]
  rw [readKey, quoted, skipBlank_cons rfl]
  simp only [if_true, strings]
  rfl

theorem takes_quote (t : Text) : r.Takes (quote t) (r.text (key t)) := by
  apply takes_of_readScalar rfl (by decide)
  intro rest _
  rw [List.cons_append, List.append_assoc]
  simp only [readScalar, if_true, List.singleton_append, strings]
  rfl

/-- Members whose values are taken are taken in a row from their first key
on. -/
theorem reads_members {members : List (Text × Json)}
    (takes : ∀ member ∈ members,
      r.Takes member.2.compact (r.make key number member.2))
    (some_members : members ≠ []) (outer : List (Frame κ α)) (rest : Text) :
    ∃ first behind,
      r.readKey (compactMembers members ++ rest) = .ok (first, behind) ∧
      ∀ done, r.readIn (.object done first :: outer) behind =
        r.readOn outer (r.object (done ++ r.makeMembers key number members))
          rest := by
  induction members with
  | nil => exact absurd rfl some_members
  | cons member more ih =>
      obtain ⟨name, value⟩ := member
      have head := takes (name, value) List.mem_cons_self
      refine ⟨key name, ?_⟩
      cases more with
      | nil =>
          rw [compactMembers, List.append_assoc, List.cons_append,
            readKey_quote strings]
          refine ⟨_, rfl, fun done => ?_⟩
          rw [List.append_assoc, List.singleton_append,
            head.reads _ _ (ends_cons (by decide) rest), readOn_object_eq,
            skipBlank_cons rfl]
          rfl
      | cons next more =>
          obtain ⟨second, behind, found, onward⟩ :=
            ih (fun member mem => takes member (List.mem_cons_of_mem _ mem))
              (List.cons_ne_nil next more)
          rw [compactMembers, List.append_assoc, List.cons_append,
            readKey_quote strings]
          refine ⟨_, rfl, fun done => ?_⟩
          rw [List.append_assoc, List.cons_append,
            head.reads _ _ (ends_cons (by decide) _), readOn_object_eq,
            skipBlank_cons rfl]
          simp only [show ¬ (',' = '}') by decide, if_false, if_true, found,
            onward, List.append_assoc]
          rfl

theorem takes_object {members : List (Text × Json)}
    (takes : ∀ member ∈ members,
      r.Takes member.2.compact (r.make key number member.2)) :
    r.Takes (compact (.object members))
      (r.make key number (.object members)) := by
  refine ⟨⟨'{', _, rfl, rfl, by decide⟩, fun outer rest _ => ?_⟩
  rw [compact, List.cons_append, readIn_eq, skipBlank_cons rfl]
  simp only [show ¬ ('{' = '[') by decide, if_false, if_true]
  cases members with
  | nil => exact readMembers_close outer rest
  | cons member more =>
      have some_members := List.cons_ne_nil member more
      obtain ⟨first, behind, found, onward⟩ :=
        reads_members strings takes some_members outer rest
      obtain ⟨cs, quoted⟩ := compactMembers_begins some_members rest
      rw [quoted] at found ⊢
      rw [readMembers_quote, found]
      exact onward []

/-- The compact text of a value is taken, if its numbers are. -/
theorem takes_compact (value : Json)
    (numbers : ∀ n ∈ value.numbers, r.Takes n.text (number n)) :
    r.Takes value.compact (r.make key number value) := by
  induction value using Json.induction with
  | null => exact takes_of_readScalar rfl (by decide) fun rest _ => rfl
  | bool value =>
      cases value with
      | true => exact takes_of_readScalar rfl (by decide) fun rest _ => rfl
      | false => exact takes_of_readScalar rfl (by decide) fun rest _ => rfl
  | number n => exact numbers n List.mem_cons_self
  | text t => exact takes_quote strings t
  | list items ih =>
      exact takes_list fun item mem => ih item mem fun n found =>
        numbers n (mem_itemNumbers found mem)
  | object members ih =>
      exact takes_object strings fun member mem => ih member mem fun n found =>
        numbers n (mem_memberNumbers found mem)

end Strings

end Reader

/-! ## The reader that builds values -/

/-- The reader that builds values makes of each value that value. -/
theorem make_building (value : Json) :
    building.make id .number value = value := by
  induction value using Json.induction with
  | null | bool | number | text => rfl
  | list items ih =>
      have same : building.makeItems id .number items = items := by
        induction items with
        | nil => rfl
        | cons item more rest =>
            rw [Reader.makeItems, ih item List.mem_cons_self,
              rest fun item mem => ih item (List.mem_cons_of_mem _ mem)]
      exact congrArg Json.list same
  | object members ih =>
      have same : building.makeMembers id .number members = members := by
        induction members with
        | nil => rfl
        | cons member more rest =>
            rw [Reader.makeMembers, ih member List.mem_cons_self,
              rest fun member mem => ih member (List.mem_cons_of_mem _ mem)]
            rfl
      exact congrArg Json.object same

/-- A value without numbers is read back from its compact text. -/
theorem ofText_compact {value : Json} (plain : value.numbers = []) :
    ofText value.compact = .ok value := by
  have taken : building.Takes value.compact value := by
    have made : building.Takes value.compact (building.make id .number value) :=
      Reader.takes_compact readString_quote value (by simp [plain])
    rwa [make_building] at made
  have read : building.read value.compact = .ok (value, []) := by
    have step := taken.reads [] [] ends_nil
    rw [List.append_nil] at step
    rw [Reader.read, step, Reader.readOn]
  rw [ofText, read]
  rfl

end UsageLine.Json
