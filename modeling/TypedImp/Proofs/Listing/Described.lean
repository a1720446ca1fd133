import TypedImp.Proofs.Layout.Checking
import TypedImp.Proofs.Listing.Expressions
import TypedImp.Proofs.Listing.Lexed
import TypedImp.Proofs.Listing.Named

/-!
# Types are read back from their text

The text of a type has no blanks, and no parentheses but those around parameters.  Still nothing
is lost in it: **`Entities.describe_readsBack`** says that the grammar reads the text of a type up
to its end, and that the type expression it reads stands for that type, wherever the names of
structs and of primitive types stand for these (`Scope.NamesTypes`).  So different types have
different texts.

Only `any` cannot be read back.  It is the type of some parameters of the standard functions, and
no name stands for it.
-/

namespace TypedImp

open Token Grammar Checking

/-! ### Names of types -/

mutual

def Ty.hasAny : Ty → Bool
  | .any => true
  | .array element => element.hasAny
  | .function params result => Ty.haveAny params || result.hasAny
  | _ => false

def Ty.haveAny : List Ty → Bool
  | [] => false
  | ty :: tys => ty.hasAny || Ty.haveAny tys

end

/-- **The names of types stand for the types**: that of a struct for the struct, and those of the
primitive types for these. -/
structure Scope.NamesTypes (s : Scope) (E : Entities) : Prop where
  primitive : ∀ p ∈ Ty.primitives, s.find? p.1 = some (.type p.2)
  struct : ∀ id : StructId, id.index < E.structs.size →
    s.find? (E.structAt id).name = some (.struct id)

/-- **Structs can be told apart by their names**, from each other and from primitive types. -/
structure Entities.HasTypeNames (E : Entities) : Prop where
  isName : ∀ row ∈ E.structs.toList, IsName row.name
  free : ∀ row ∈ E.structs.toList, row.name ∉ Ty.primitives.map Prod.fst
  distinct : (E.structs.toList.map Struct.name).Nodup

namespace Entities

variable {E : Entities}

theorem HasTypeNames.isName_structAt (h : E.HasTypeNames) (id : StructId)
    (hid : id.index < E.structs.size) : IsName (E.structAt id).name := by
  rw [structAt, Array.getElem?_eq_getElem hid]
  exact h.isName _ (Array.getElem_mem_toList hid)

/-! ### A scope with the names of types -/

def typeBindings (E : Entities) : List (String × Binding) :=
  E.structs.toList.zipIdx.map (fun row => (row.1.name, .struct ⟨row.2⟩)) ++
    Ty.primitives.map fun p => (p.1, .type p.2)

def typeScope (E : Entities) : Scope := ⟨⟨E.typeBindings, false, none⟩, []⟩

theorem HasTypeNames.nodup_typeBindings (h : E.HasTypeNames) :
    (E.typeBindings.map Prod.fst).Nodup := by
  have hstructs :
      (E.structs.toList.zipIdx.map fun row => (row.1.name, Binding.struct ⟨row.2⟩)).map Prod.fst =
        E.structs.toList.map Struct.name := by
    rw [List.map_map]
    conv_rhs => rw [← List.zipIdx_map_fst 0 E.structs.toList, List.map_map]
    rfl
  rw [typeBindings, List.map_append, hstructs, List.map_map, List.nodup_append]
  refine ⟨h.distinct, by decide, fun name hname name' hname' heq => ?_⟩
  obtain ⟨row, hrow, rfl⟩ := List.mem_map.mp hname
  exact h.free row hrow (heq ▸ hname')

/-- A name that is bound once stands for what it is bound to. -/
theorem HasTypeNames.find?_typeScope (h : E.HasTypeNames) {name : String} {b : Binding}
    (hb : (name, b) ∈ E.typeBindings) : E.typeScope.find? name = some b := by
  obtain ⟨front, behind, hsplit⟩ := List.append_of_mem hb
  have hlookup : E.typeBindings.lookup name = some b := by
    refine List.lookup_eq_some_iff.mpr ⟨front, behind, hsplit, fun p hp => ?_⟩
    have hnodup := h.nodup_typeBindings
    rw [hsplit, List.map_append, List.nodup_append] at hnodup
    rw [bne_iff_ne]
    exact (hnodup.2.2 p.1 (List.mem_map_of_mem hp) name List.mem_cons_self).symm
  rw [typeScope, Scope.find?, List.findSome?_cons, Frame.find?, hlookup]

theorem HasTypeNames.namesTypes (h : E.HasTypeNames) : E.typeScope.NamesTypes E where
  primitive p hp := h.find?_typeScope (List.mem_append_right _ (List.mem_map.mpr ⟨p, hp, rfl⟩))
  struct id hid := by
    refine h.find?_typeScope (List.mem_append_left _ (List.mem_map.mpr
      ⟨(E.structs[id.index], id.index), ?_, ?_⟩))
    · rw [List.mk_mem_zipIdx_iff_getElem?, Array.getElem?_toList, Array.getElem?_eq_getElem hid]
    · rw [structAt, Array.getElem?_eq_getElem hid, Option.getD_some]

/-! ### Reading a type -/

theorem resolveType_of_type {scope : Scope} {name : String} {ty : Ty}
    (h : scope.find? name = some (.type ty)) : resolveType scope (.named (.of name)) = .ok ty := by
  simp only [resolveType, Tree.Name.of, h]
  rfl

theorem resolveType_of_struct {scope : Scope} {name : String} {id : StructId}
    (h : scope.find? name = some (.struct id)) :
    resolveType scope (.named (.of name)) = .ok (.struct id) := by
  simp only [resolveType, Tree.Name.of, h]
  rfl

mutual

/-- **What the tree of a type stands for** is the type. -/
theorem resolveType_typeTree {scope : Scope} (h : scope.NamesTypes E) (ty : Ty) (hty : ty.Known E)
    (hany : ty.hasAny = false) : resolveType scope (E.typeTree ty) = .ok ty := by
  cases ty with
  | number => exact resolveType_of_type (h.primitive ("number", .number) (by simp [Ty.primitives]))
  | string => exact resolveType_of_type (h.primitive ("string", .string) (by simp [Ty.primitives]))
  | bool => exact resolveType_of_type (h.primitive ("boolean", .bool) (by simp [Ty.primitives]))
  | void => exact resolveType_of_type (h.primitive ("void", .void) (by simp [Ty.primitives]))
  | any => cases hany
  | array element =>
    have helement := resolveType_typeTree h element hty hany
    rw [typeTree, resolveType, helement]
    rfl
  | struct id => exact resolveType_of_struct (h.struct id hty)
  | function params result =>
    rw [Ty.hasAny, Bool.or_eq_false_iff] at hany
    have hparams := resolveTypes_typeTrees h params hty.1 hany.1
    have hresult := resolveType_typeTree h result hty.2 hany.2
    rw [typeTree, resolveType, hparams, hresult]
    rfl
termination_by structural ty

theorem resolveTypes_typeTrees {scope : Scope} (h : scope.NamesTypes E) (tys : List Ty)
    (htys : Ty.KnownAll E tys) (hany : Ty.haveAny tys = false) :
    resolveTypes scope (E.typeTrees tys) = .ok tys := by
  cases tys with
  | nil => rfl
  | cons ty tys =>
    rw [Ty.haveAny, Bool.or_eq_false_iff] at hany
    have hfirst := resolveType_typeTree h ty htys.1 hany.1
    have hothers := resolveTypes_typeTrees h tys htys.2 hany.2
    rw [typeTrees, resolveTypes, hfirst, hothers]
    rfl
termination_by structural tys

end

/-- The tokens of the text of a type. -/
theorem HasTypeNames.kinds_describe (hE : E.HasTypeNames) {ty : Ty} (hty : ty.Known E) :
    (ofSource (E.describe ty)).map Token.kind = E.typeKinds ty ++ [.eof] := by
  have h := TypedImp.kinds_describe ty (readableType_of_known hE.isName_structAt ty hty) apart_nil
  rwa [List.append_nil, kinds_nil] at h

/-- What is read where the text of a type comes: the whole text, as a tree that stands for the
type. -/
theorem HasTypeNames.exists_read (hE : E.HasTypeNames) {ty : Ty} (hty : ty.Known E)
    (hany : ty.hasAny = false) {depth : Nat}
    (hdepth : (ofSource (E.describe ty)).length < depth) :
    ∃ cursor tree stop, ofSource (E.describe ty) = cursor.tokens ∧
      (Rules.unfold depth).type cursor = .done tree ⟨stop, []⟩ ∧ stop.kind = .eof ∧
      ∀ scope : Scope, scope.NamesTypes E → resolveType scope tree = .ok ty := by
  have hkinds := hE.kinds_describe hty
  cases htokens : ofSource (E.describe ty) with
  | nil =>
    rw [htokens] at hkinds
    exact absurd hkinds.symm (by simp)
  | cons current ahead =>
    have hcursor : (Cursor.mk current ahead).kinds = E.typeKinds ty ++ [.eof] := by
      rw [← hkinds, htokens]
      rfl
    have hlength : (E.typeKinds ty ++ [Kind.eof]).length < depth := by
      rwa [← hkinds, List.length_map]
    obtain ⟨tree, ⟨stop, ahead'⟩, hdone, hbehind, hbare⟩ :=
      (isType E ty).reads ⟨[], rfl⟩ hlength ⟨current, ahead⟩ hcursor
    obtain ⟨hstop, hahead⟩ := List.cons.inj hbehind
    obtain rfl := List.map_eq_nil_iff.mp hahead
    refine ⟨⟨current, ahead⟩, tree, stop, rfl, hdone, hstop, fun scope hscope => ?_⟩
    have halike := resolveType_bare scope tree
    rw [hbare, resolveType_typeTree hscope ty hty hany] at halike
    cases hresult : resolveType scope tree with
    | error fault =>
      rw [hresult] at halike
      cases halike
    | ok found =>
      rw [hresult] at halike
      cases halike with
      | ok heq => rw [heq]

/-- **The text of a type is read back as the type.**  The grammar reads all of it, up to the end
of the input, and what it reads stands for the type in every scope in which the names of types
stand for these.  Such scopes exist, so types that have the same text are the same. -/
theorem describe_readsBack (E : Entities) (hE : E.HasTypeNames) :
    (∀ ty : Ty, ty.Known E → ty.hasAny = false → ∀ depth,
      (ofSource (E.describe ty)).length < depth →
        ∃ cursor tree stop, ofSource (E.describe ty) = cursor.tokens ∧
          (Rules.unfold depth).type cursor = .done tree ⟨stop, []⟩ ∧ stop.kind = .eof ∧
          ∀ scope : Scope, scope.NamesTypes E → resolveType scope tree = .ok ty) ∧
    ∀ ty ty' : Ty, ty.Known E → ty.hasAny = false → ty'.Known E → ty'.hasAny = false →
      E.describe ty = E.describe ty' → ty = ty' := by
  refine ⟨fun ty hty hany depth hdepth => hE.exists_read hty hany hdepth, ?_⟩
  intro ty ty' hty hany hty' hany' heq
  have hdepth : (ofSource (E.describe ty)).length < (ofSource (E.describe ty)).length + 1 :=
    Nat.lt_succ_self _
  obtain ⟨cursor, tree, stop, htokens, hdone, -, hresolve⟩ := hE.exists_read hty hany hdepth
  rw [heq] at hdepth htokens hdone
  obtain ⟨cursor', tree', stop', htokens', hdone', -, hresolve'⟩ :=
    hE.exists_read hty' hany' hdepth
  obtain rfl : cursor = cursor' := Cursor.eq_of_tokens (htokens.symm.trans htokens')
  rw [hdone] at hdone'
  cases hdone'
  have hsame := (hresolve _ hE.namesTypes).symm.trans (hresolve' _ hE.namesTypes)
  exact Except.ok.inj hsame

def lines : Entities :=
  { structs := #[⟨"Point", [⟨"x", .number⟩], false⟩, ⟨"Line", [⟨"start", .struct ⟨0⟩⟩], true⟩] }

theorem hasTypeNames_lines : lines.HasTypeNames where
  isName := by decide
  free := by decide
  distinct := by decide

/-- A function that takes a list of functions and a line, and gives a function.  Its brackets and
arrows are read as they were meant, and its text is not that of a list of functions. -/
theorem describe_readsBack_lines :
    let ty : Ty := .function [.array (.function [] .void), .struct ⟨1⟩]
      (.function [.number] (.array (.struct ⟨0⟩)))
    lines.describe ty = "([()->void],Line)->(number)->[Point]" ∧
      (∃ cursor tree stop, ofSource (lines.describe ty) = cursor.tokens ∧
        (Rules.unfold 20).type cursor = .done tree ⟨stop, []⟩ ∧ stop.kind = .eof ∧
        resolveType lines.typeScope tree = .ok ty) ∧
      lines.describe ty ≠ lines.describe (.array ty) := by
  intro ty
  have hty : ty.Known lines := by simp [ty, Ty.Known, Ty.KnownAll, lines]
  have hdepth : (ofSource (lines.describe ty)).length < 20 := by
    rw [← List.length_map (f := Token.kind), hasTypeNames_lines.kinds_describe hty]
    decide
  obtain ⟨hreads, hinjective⟩ := lines.describe_readsBack hasTypeNames_lines
  refine ⟨by decide, ?_, fun heq => ?_⟩
  · obtain ⟨cursor, tree, stop, htokens, hdone, hstop, hresolve⟩ :=
      hreads ty hty rfl 20 hdepth
    exact ⟨cursor, tree, stop, htokens, hdone, hstop, hresolve _ hasTypeNames_lines.namesTypes⟩
  · exact absurd (hinjective ty (.array ty) hty rfl hty rfl heq) (by decide)

end Entities

end TypedImp
