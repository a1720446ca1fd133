import Mathlib.Logic.Relation
import TypedImp.Proofs.Tables.Found

/-!
# Structs within structs, through others

A struct holds another one if that is the type of one of its fields (`Entities.Holds`), and what it
holds through others is the transitive closure of this.  **`Entities.contains_iff_transGen`**: the
search that a declaration is checked with decides this closure, whatever the tables are, so also
where structs lead back to each other; and in tables that are in range it does not fail.

All branches of the search share what has been visited, and a struct that has been visited is
passed over, even while the search is still within it.  Nothing is lost by that: what a visited
struct holds is pending unless it has been visited too, and then it was not the target
(`Entities.Covered`).  Once nothing is pending, no way leads from the visited structs to the target.
-/

namespace TypedImp.Entities

def Holds (E : Entities) (outer inner : StructId) : Prop :=
  ∃ field ∈ (E.structAt outer).fields, field.ty = .struct inner

variable {E : Entities} {target : StructId} {visited pending : List StructId}

theorem mem_parts_iff {outer inner : StructId} : inner ∈ E.parts outer ↔ E.Holds outer inner := by
  rw [parts, List.mem_filterMap]
  refine exists_congr fun field => and_congr_right fun _ => ?_
  cases field.ty <;> simp

/-- What is found is one of the pending structs, or one of them leads to it. -/
theorem exists_of_search (h : E.search target visited pending = true) :
    ∃ id ∈ pending, Relation.ReflTransGen E.Holds id target := by
  fun_induction search E target visited pending with
  | case1 => cases h
  | case2 visited pending => exact ⟨target, List.mem_cons_self, .refl⟩
  | case3 visited id pending hne hvisited ih =>
    obtain ⟨found, hfound, hway⟩ := ih h
    exact ⟨found, List.mem_cons_of_mem id hfound, hway⟩
  | case4 visited id pending hne hnew ih =>
    obtain ⟨found, hfound, hway⟩ := ih h
    rcases List.mem_append.mp hfound with hpart | hpending
    · exact ⟨id, List.mem_cons_self, hway.head (mem_parts_iff.mp hpart)⟩
    · exact ⟨found, List.mem_cons_of_mem id hpending, hway⟩

/-- **What the visited structs hold** is pending, or it has been visited and was not the target. -/
def Covered (E : Entities) (target : StructId) (visited pending : List StructId) : Prop :=
  ∀ id ∈ visited, ∀ part, E.Holds id part → part ∈ pending ∨ part ∈ visited ∧ part ≠ target

/-- What is pending may be passed over once it has been visited. -/
theorem Covered.skip {id : StructId} (h : E.Covered target visited (id :: pending))
    (hne : id ≠ target) (hvisited : id ∈ visited) : E.Covered target visited pending := by
  intro outer houter part hpart
  rcases h outer houter part hpart with hpending | hseen
  · rcases List.mem_cons.mp hpending with rfl | hpending
    · exact .inr ⟨hvisited, hne⟩
    · exact .inl hpending
  · exact .inr hseen

/-- A visit leaves what the struct holds pending. -/
theorem Covered.visit {id : StructId} (h : E.Covered target visited (id :: pending))
    (hne : id ≠ target) : E.Covered target (id :: visited) (E.parts id ++ pending) := by
  intro outer houter part hpart
  rcases List.mem_cons.mp houter with rfl | houter
  · exact .inl (List.mem_append_left _ (mem_parts_iff.mpr hpart))
  · rcases h outer houter part hpart with hpending | ⟨hseen, htarget⟩
    · rcases List.mem_cons.mp hpending with rfl | hpending
      · exact .inr ⟨List.mem_cons_self, hne⟩
      · exact .inl (List.mem_append_right _ hpending)
    · exact .inr ⟨List.mem_cons_of_mem id hseen, htarget⟩

/-- Where nothing is pending, no way leads out of the visited structs to the target. -/
theorem Covered.not_transGen (h : E.Covered target visited []) {id : StructId}
    (hid : id ∈ visited) : ¬ Relation.TransGen E.Holds id target := by
  intro hway
  induction hway using Relation.TransGen.head_induction_on with
  | single hheld =>
    rcases h _ hid _ hheld with hpending | ⟨-, htarget⟩
    · cases hpending
    · exact htarget rfl
  | head hheld _ ih =>
    rcases h _ hid _ hheld with hpending | ⟨hvisited, -⟩
    · cases hpending
    · exact ih hvisited

/-- A search that finds nothing has looked at all that the visited structs lead to. -/
theorem Covered.not_transGen_of_search (h : E.Covered target visited pending)
    (hsearch : E.search target visited pending = false) :
    ∀ id ∈ visited, ¬ Relation.TransGen E.Holds id target := by
  fun_induction search E target visited pending with
  | case1 => exact fun id hid => h.not_transGen hid
  | case2 => cases hsearch
  | case3 visited id pending hne hvisited ih => exact ih (h.skip hne hvisited) hsearch
  | case4 visited id pending hne hnew ih =>
    exact fun outer houter => ih (h.visit hne) hsearch outer (List.mem_cons_of_mem id houter)

theorem transGen_of_contains {outer inner : StructId} (h : E.contains outer inner = true) :
    Relation.TransGen E.Holds outer inner := by
  obtain ⟨id, hid, hway⟩ := exists_of_search h
  exact .head' (mem_parts_iff.mp hid) hway

theorem contains_of_transGen {outer inner : StructId}
    (h : Relation.TransGen E.Holds outer inner) : E.contains outer inner = true := by
  have hcovered : E.Covered inner [outer] (E.parts outer) := by
    intro id hid part hpart
    rw [List.mem_singleton.mp hid] at hpart
    exact .inl (mem_parts_iff.mpr hpart)
  cases hsearch : E.contains outer inner with
  | true => rfl
  | false =>
    exact absurd h (hcovered.not_transGen_of_search hsearch outer (List.mem_singleton_self outer))

/-- **The search for a struct within another one decides whether a way leads to it**: from struct to
struct, each time to one that is the type of a field, in one step or more.  A struct is within
itself only if a way leads back to it.  Where the struct has a row and the tables are in range, the
search of a run comes to the same answer. -/
theorem contains_iff_transGen (E : Entities) (outer inner : StructId) :
    (E.contains outer inner = true ↔ Relation.TransGen E.Holds outer inner) ∧
      (E.InRange → E.HasRow (.struct outer) →
        E.tryContains outer inner = .ok (E.contains outer inner)) :=
  ⟨⟨transGen_of_contains, contains_of_transGen⟩, fun hE houter => tryContains_eq hE houter inner⟩

/-- Two structs that hold each other, and one that holds an array of the first one only. -/
def mutualStructs : Entities :=
  let held (name : String) (ty : Ty) : Struct := ⟨name, [⟨"x", ty⟩], false⟩
  { structs := #[held "A" (.struct ⟨1⟩), held "B" (.struct ⟨0⟩), held "C" (.array (.struct ⟨0⟩))] }

theorem mutualStructs_inRange : mutualStructs.InRange := by
  refine ⟨nofun, nofun, fun {i row} hrow field hf => ?_⟩
  have hall : ∀ row ∈ mutualStructs.structs, ∀ field ∈ row.fields, ∀ id,
      Ty.struct id ∈ field.ty.nested → id.index < 3 := by
    simp [mutualStructs, Ty.nested]
  refine field.ty.known_iff.mpr fun id hid => ?_
  exact hall row (Array.mem_of_getElem? hrow) field hf id hid

/-- A way leads from the first struct back to itself, and none from it to the third one. -/
theorem contains_iff_transGen_mutual :
    mutualStructs.tryContains ⟨0⟩ ⟨0⟩ = .ok true ∧
    Relation.TransGen mutualStructs.Holds ⟨0⟩ ⟨0⟩ ∧
    ¬ Relation.TransGen mutualStructs.Holds ⟨0⟩ ⟨2⟩ := by
  obtain ⟨hway, hruns⟩ := contains_iff_transGen mutualStructs ⟨0⟩ ⟨0⟩
  have hback : mutualStructs.contains ⟨0⟩ ⟨0⟩ = true := by decide
  have hthird : mutualStructs.contains ⟨0⟩ ⟨2⟩ = false := by decide
  refine ⟨?_, hway.mp hback, fun h => ?_⟩
  · rw [hruns mutualStructs_inRange (Nat.succ_pos 2), hback]
  · rw [(contains_iff_transGen mutualStructs ⟨0⟩ ⟨2⟩).1.mpr h] at hthird
    cases hthird

end TypedImp.Entities
