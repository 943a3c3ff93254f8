import Mathlib.Data.List.Forall2
import UsageLine.Json

/-!
# Members in any order

An object is asked for the value of a key.  If no key is repeated the answer is
the same in any order of its members, as long as the value looks the same in
any order itself.
-/

namespace UsageLine.Json

variable {key : Text} {value written : Json}
  {members moved others : List (Text × Json)}

/-! ## Values by key -/

theorem member?_cons (member : Text × Json) (members : List (Text × Json)) :
    member? key (member :: members) =
      (member? key members).or (if member.1 = key then some member.2 else none) :=
  rfl

theorem member?_eq_none_iff :
    member? key members = none ↔ key ∉ members.map Prod.fst := by
  induction members with
  | nil => simp [member?]
  | cons member more ih =>
      rw [member?_cons, Option.or_eq_none_iff, ih, List.map_cons, List.mem_cons]
      by_cases same : member.1 = key
      · simp [same]
      · simp [same, Ne.symm same]

/-- Where no key is repeated, a key has the value of any member that it names. -/
theorem member?_eq_some_iff (distinct : (members.map Prod.fst).Nodup) :
    member? key members = some value ↔ (key, value) ∈ members := by
  induction members with
  | nil => simp [member?]
  | cons member more ih =>
      obtain ⟨name, first⟩ := member
      rw [List.map_cons, List.nodup_cons] at distinct
      rw [member?_cons, List.mem_cons, Prod.mk.injEq]
      by_cases same : name = key
      · subst same
        have absent : member? name more = none := member?_eq_none_iff.mpr distinct.1
        rw [absent, if_pos rfl, Option.none_or, Option.some.injEq]
        constructor
        · rintro rfl
          exact .inl ⟨rfl, rfl⟩
        · rintro (⟨-, rfl⟩ | later)
          · rfl
          · exact absurd (List.mem_map_of_mem later) distinct.1
      · rw [if_neg same, Option.or_none, ih distinct.2]
        simp [Ne.symm same]

/-! ## Order of members -/

/-- The same value with the members of every object in it in any order. -/
inductive Rearranged : Json → Json → Prop
  | same (value : Json) : Rearranged value value
  | list {items others : List Json} (each : List.Forall₂ Rearranged items others) :
      Rearranged (.list items) (.list others)
  /-- The values of the members are rearranged first, and then the members. -/
  | object {members moved others : List (Text × Json)}
      (keys : moved.map Prod.fst = members.map Prod.fst)
      (each : List.Forall₂ Rearranged (members.map Prod.snd) (moved.map Prod.snd))
      (order : moved.Perm others) :
      Rearranged (.object members) (.object others)

/-- The value repeats no key, if it is an object. -/
def KeysDistinct : Json → Prop
  | .object members => (members.map Prod.fst).Nodup
  | _ => True

namespace Rearranged

theorem exists_object (rearranged : Rearranged (.object members) written) :
    ∃ others, written = .object others := by
  cases rearranged <;> exact ⟨_, rfl⟩

theorem exists_moved (rearranged : Rearranged (.object members) (.object others)) :
    ∃ moved : List (Text × Json), moved.map Prod.fst = members.map Prod.fst ∧
      List.Forall₂ Rearranged (members.map Prod.snd) (moved.map Prod.snd) ∧
      moved.Perm others := by
  cases rearranged with
  | same =>
      exact ⟨members, rfl, List.forall₂_same.mpr fun value _ => .same value,
        List.Perm.refl members⟩
  | object keys each order => exact ⟨_, keys, each, order⟩

theorem keys_perm (rearranged : Rearranged (.object members) (.object others)) :
    (members.map Prod.fst).Perm (others.map Prod.fst) := by
  obtain ⟨moved, keys, -, order⟩ := rearranged.exists_moved
  rw [← keys]
  exact order.map Prod.fst

theorem keysDistinct (rearranged : value.Rearranged written)
    (distinct : value.KeysDistinct) : written.KeysDistinct := by
  cases value with
  | object members =>
      obtain ⟨others, rfl⟩ := rearranged.exists_object
      exact rearranged.keys_perm.nodup_iff.mp distinct
  | null | bool | number | text | list =>
      cases rearranged <;> exact trivial

end Rearranged

/-! ## Values that look the same in any order -/

/-- No other value is this one with its members in another order. -/
def Fixed (fixed : Json) : Prop :=
  ∀ {value written : Json}, Rearranged value written →
    (value = fixed ↔ written = fixed)

theorem fixed_of_simple {fixed : Json}
    (simple : fixed.shape ≠ .list ∧ fixed.shape ≠ .object) : fixed.Fixed := by
  intro value written rearranged
  cases rearranged with
  | same => exact Iff.rfl
  | list =>
      constructor
      · rintro rfl
        exact absurd rfl simple.1
      · rintro rfl
        exact absurd rfl simple.1
  | object =>
      constructor
      · rintro rfl
        exact absurd rfl simple.2
      · rintro rfl
        exact absurd rfl simple.2

theorem fixed_text (t : Text) : (Json.text t).Fixed :=
  fixed_of_simple (by simp [shape])

theorem fixed_bool (b : Bool) : (Json.bool b).Fixed :=
  fixed_of_simple (by simp [shape])

theorem eq_iff_of_forall_fixed {items others fixeds : List Json}
    (each : List.Forall₂ Rearranged items others)
    (fixed : ∀ value ∈ fixeds, Fixed value) : items = fixeds ↔ others = fixeds := by
  induction each generalizing fixeds with
  | nil => exact Iff.rfl
  | cons first _ ih =>
      cases fixeds with
      | nil => exact ⟨nofun, nofun⟩
      | cons value more =>
          rw [List.cons.injEq, List.cons.injEq, fixed value List.mem_cons_self first,
            ih fun value mem => fixed value (List.mem_cons_of_mem _ mem)]

theorem fixed_list {items : List Json} (fixed : ∀ item ∈ items, Fixed item) :
    (Json.list items).Fixed := by
  intro value written rearranged
  cases rearranged with
  | same => exact Iff.rfl
  | list each =>
      rw [Json.list.injEq, Json.list.injEq, eq_iff_of_forall_fixed each fixed]
  | object => exact ⟨nofun, nofun⟩

theorem Fixed.mem_iff (fixed : value.Fixed)
    (keys : moved.map Prod.fst = members.map Prod.fst)
    (each : List.Forall₂ Rearranged (members.map Prod.snd) (moved.map Prod.snd)) :
    (key, value) ∈ members ↔ (key, value) ∈ moved := by
  induction members generalizing moved with
  | nil =>
      rw [List.map_nil, List.map_eq_nil_iff] at keys
      rw [keys]
  | cons member more ih =>
      cases moved with
      | nil => cases keys
      | cons first moved =>
          rw [List.map_cons, List.map_cons, List.cons.injEq] at keys
          rw [List.map_cons, List.map_cons, List.forall₂_cons] at each
          have same : value = member.2 ↔ value = first.2 := by
            rw [eq_comm, fixed each.1, eq_comm]
          rw [List.mem_cons, List.mem_cons, ih keys.2 each.2, Prod.ext_iff,
            Prod.ext_iff, keys.1]
          simp only [same]

/-- The value of a key is found in any order of the members, if it looks the same
in any order. -/
theorem Fixed.member?_iff (fixed : value.Fixed)
    (distinct : (members.map Prod.fst).Nodup)
    (rearranged : Rearranged (.object members) (.object others)) :
    member? key members = some value ↔ member? key others = some value := by
  have still := rearranged.keys_perm.nodup_iff.mp distinct
  obtain ⟨moved, keys, each, order⟩ := rearranged.exists_moved
  rw [member?_eq_some_iff distinct, member?_eq_some_iff still,
    fixed.mem_iff keys each]
  exact order.mem_iff

theorem Rearranged.member?_eq_none_iff
    (rearranged : Rearranged (.object members) (.object others)) :
    member? key members = none ↔ member? key others = none := by
  rw [Json.member?_eq_none_iff, Json.member?_eq_none_iff,
    rearranged.keys_perm.mem_iff]

end UsageLine.Json
