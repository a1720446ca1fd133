import TypedImp.Proofs.Listing.Named
import TypedImp.Proofs.Scoping.Checked
import TypedImp.Proofs.Tables.Steps

/-!
# Names that are shared

A name in a listing has the index of its row behind it, apart from the name of a function that
comes with the language.  Such names tell two rows of one table apart: the index is what stands
behind the last `_` (`Listing.indexed_inj`), and what comes with the language has no `_` in its
name.

But every table counts its rows from zero.  So two entities of different tables have the same
name in a listing if they were declared by the same name and have the same index, as
`Program.shared_name_iff` says; and there are such programs (`exists_name_shared`).
-/

namespace TypedImp

/-! ### Entities -/

def EntityId.index : EntityId → Nat
  | .var id => id.index
  | .func id => id.index
  | .struct id => id.index

namespace Entities

def HasRow (E : Entities) : EntityId → Prop
  | .var id => id.index < E.vars.size
  | .func id => id.index < E.funcs.size
  | .struct id => id.index < E.structs.size

def nameAt (E : Entities) : EntityId → String
  | .var id => (E.variableAt id).name
  | .func id => (E.functionAt id).name
  | .struct id => (E.structAt id).name

def isBuiltin (E : Entities) : EntityId → Bool
  | .func id => (E.functionAt id).builtin
  | _ => false

end Entities

/-! ### Names with an index -/

namespace Listing

/-- No `_` stands among the digits of an index. -/
theorem eq_nil_of_index {i : Nat} {front rest : List Char}
    (h : '_' :: Nat.toDigits 10 i = front ++ '_' :: rest) : front = [] := by
  cases front with
  | nil => rfl
  | cons c front =>
    have hmem : '_' ∈ Nat.toDigits 10 i := by
      rw [(List.cons.inj h).2]
      exact List.mem_append_right front List.mem_cons_self
    exact absurd hmem Nat.underscore_not_in_toDigits

/-- **A name with an index has only one form**: the index is behind the last `_`. -/
theorem indexed_inj {m n : String} {i j : Nat} :
    indexed m i = indexed n j ↔ m = n ∧ i = j := by
  constructor
  · intro h
    have hlist := congrArg String.toList h
    rw [toList_indexed, toList_indexed] at hlist
    have hnames : m.toList = n.toList := by
      rcases List.append_eq_append_iff.mp hlist with ⟨front, hn, hi⟩ | ⟨front, hm, hj⟩
      · rw [hn, eq_nil_of_index hi, List.append_nil]
      · rw [hm, eq_nil_of_index hj, List.append_nil]
    rw [hnames] at hlist
    have hdigits := (List.cons.inj (List.append_cancel_left hlist)).2
    refine ⟨String.toList_inj.mp hnames, ?_⟩
    rw [← Nat.ofDigitChars_ten_toDigits (n := i), hdigits, Nat.ofDigitChars_ten_toDigits]
  · rintro ⟨rfl, rfl⟩
    rfl

theorem underscore_mem_indexed (name : String) (i : Nat) : '_' ∈ (indexed name i).toList := by
  rw [toList_indexed]
  exact List.mem_append_right _ List.mem_cons_self

/-- The name that a listing writes for an entity. -/
def ofEntity (E : Entities) : EntityId → String
  | .var id => ofVariable E id
  | .func id => ofFunction E id
  | .struct id => ofStruct E id

/-- It is what is written for an expression that is nothing but this name. -/
theorem ofExpr_eq_ofEntity (E : Entities) {e : Expr} {i : EntityId} (h : e.entity? = some i) :
    ofExpr E e = ofEntity E i := by
  cases e with
  | var | func | struct =>
    cases h
    rfl
  | _ => cases h

theorem ofEntity_eq (E : Entities) (i : EntityId) :
    ofEntity E i = if E.isBuiltin i then E.nameAt i else indexed (E.nameAt i) i.index := by
  cases i <;> rfl

end Listing

/-! ### What comes with the language -/

namespace Entities

/-- All functions of tables that are marked as coming with the language do so. -/
def OnlyBuiltins (E : Entities) : Prop :=
  ∀ id, (E.functionAt id).builtin = true →
    id.index < initial.funcs.size ∧ (E.functionAt id).name = (initial.functionAt id).name

theorem onlyBuiltins_initial : initial.OnlyBuiltins := by
  intro id h
  refine ⟨?_, rfl⟩
  by_contra hid
  rw [functionAt, Array.getElem?_eq_none (by omega)] at h
  cases h

/-- A signature is all that is set. -/
theorem functionAt_setSignature (E : Entities) (target : FunctionId) (signature : Signature)
    (id : FunctionId) : ∃ signature', (E.setSignature target signature).functionAt id =
      { E.functionAt id with signature := signature' } := by
  rw [functionAt, functionAt, setSignature, Array.getElem?_modify]
  split
  · cases E.funcs[id.index]? with
    | none => exact ⟨_, rfl⟩
    | some row => exact ⟨signature, rfl⟩
  · exact ⟨_, rfl⟩

/-- No step adds a function that comes with the language, or renames one. -/
theorem OnlyBuiltins.step {S : Stmt → Prop} {E E' : Entities} (h : Step S E E')
    (hE : E.OnlyBuiltins) : E'.OnlyBuiltins := by
  cases h with
  | addVariable | addStruct | setFields => exact hE
  | addFunction name signature =>
    intro id
    rw [functionAt_addFunction]
    split
    · intro hnew
      cases hnew
    · exact hE id
  | setSignature target signature =>
    intro id
    obtain ⟨signature', hrow⟩ := functionAt_setSignature E target signature id
    rw [hrow]
    exact hE id

theorem Steps.onlyBuiltins {S : Stmt → Prop} {E : Entities} (h : Steps S .initial E) :
    E.OnlyBuiltins :=
  h.induction onlyBuiltins_initial fun _ _ _ hstep hE => hE.step hstep

/-- The functions that come with the language have different names. -/
theorem nameAt_initial_inj : ∀ i < initial.funcs.size, ∀ j < initial.funcs.size,
    (initial.functionAt ⟨i⟩).name = (initial.functionAt ⟨j⟩).name → i = j := by
  decide

/-- No function that comes with the language has a `_` in its name. -/
theorem underscore_notMem_initial :
    ∀ i < initial.funcs.size, '_' ∉ (initial.functionAt ⟨i⟩).name.toList := by
  decide

variable {E : Entities}

theorem OnlyBuiltins.underscore_notMem (hE : E.OnlyBuiltins) {a : EntityId}
    (ha : E.isBuiltin a = true) : '_' ∉ (E.nameAt a).toList := by
  cases a with
  | func id =>
    obtain ⟨hid, hname⟩ := hE id ha
    rw [nameAt, hname]
    exact underscore_notMem_initial id.index hid
  | _ => cases ha

theorem OnlyBuiltins.eq_of_nameAt (hE : E.OnlyBuiltins) {a b : EntityId}
    (ha : E.isBuiltin a = true) (hb : E.isBuiltin b = true) (h : E.nameAt a = E.nameAt b) :
    a = b := by
  cases a with
  | func i =>
    cases b with
    | func j =>
      obtain ⟨hi, hiname⟩ := hE i ha
      obtain ⟨hj, hjname⟩ := hE j hb
      rw [nameAt, nameAt, hiname, hjname] at h
      obtain ⟨i⟩ := i
      obtain ⟨j⟩ := j
      rw [nameAt_initial_inj i hi j hj h]
    | _ => cases hb
  | _ => cases ha

/-- The name of a function of the language is that of no other entity. -/
theorem OnlyBuiltins.eq_of_ofEntity (hE : E.OnlyBuiltins) {a b : EntityId}
    (ha : E.isBuiltin a = true) (h : Listing.ofEntity E a = Listing.ofEntity E b) : a = b := by
  rw [Listing.ofEntity_eq, Listing.ofEntity_eq, ha, if_pos rfl] at h
  cases hb : E.isBuiltin b with
  | true =>
    rw [hb, if_pos rfl] at h
    exact hE.eq_of_nameAt ha hb h
  | false =>
    rw [hb, if_neg Bool.false_ne_true] at h
    have hmem := Listing.underscore_mem_indexed (E.nameAt b) b.index
    rw [← h] at hmem
    exact absurd hmem (hE.underscore_notMem ha)

/-- Other names are the same if their parts are. -/
theorem ofEntity_eq_iff {a b : EntityId} (ha : E.isBuiltin a = false)
    (hb : E.isBuiltin b = false) :
    Listing.ofEntity E a = Listing.ofEntity E b ↔
      E.nameAt a = E.nameAt b ∧ a.index = b.index := by
  rw [Listing.ofEntity_eq, Listing.ofEntity_eq, ha, hb, if_neg Bool.false_ne_true,
    if_neg Bool.false_ne_true]
  exact Listing.indexed_inj

end Entities

/-! ### Programs -/

namespace Program

theorem onlyBuiltins_of_compile {source : String} {simplify : Bool} {p : Program}
    (h : compile source simplify = .ok p) : p.entities.OnlyBuiltins := by
  obtain ⟨tree, q, _, hanalyze, rfl⟩ := exists_of_compile h
  have hq : q.entities.OnlyBuiltins := (steps_of_analyze hanalyze).onlyBuiltins
  -- Simplifying leaves the tables as they are.
  cases simplify with
  | true => exact hq
  | false => exact hq

/-- **Which entities share a name in a listing.**  In every program that is made of a source,
simplified or not, two entities are written by the same name if and only if they are the same,
or neither is a function of the language and they have the same index in their tables and were
declared by the same name.  It is the name by which an expression mentions the entity. -/
theorem shared_name_iff {source : String} {simplify : Bool} {p : Program}
    (h : compile source simplify = .ok p) (a b : EntityId) :
    (Listing.ofEntity p.entities a = Listing.ofEntity p.entities b ↔
      a = b ∨ (p.entities.isBuiltin a = false ∧ p.entities.isBuiltin b = false ∧
        a.index = b.index ∧ p.entities.nameAt a = p.entities.nameAt b)) ∧
    ∀ e : Expr, e.entity? = some a →
      Listing.ofExpr p.entities e = Listing.ofEntity p.entities a := by
  have hp := onlyBuiltins_of_compile h
  refine ⟨⟨fun heq => ?_, ?_⟩, fun e => Listing.ofExpr_eq_ofEntity p.entities⟩
  · by_cases ha : p.entities.isBuiltin a = true
    · exact .inl (hp.eq_of_ofEntity ha heq)
    · by_cases hb : p.entities.isBuiltin b = true
      · exact .inl (hp.eq_of_ofEntity hb heq.symm).symm
      · rw [Bool.not_eq_true] at ha hb
        obtain ⟨hname, hindex⟩ := (Entities.ofEntity_eq_iff ha hb).mp heq
        exact .inr ⟨ha, hb, hindex, hname⟩
  · rintro (rfl | ⟨ha, hb, hindex, hname⟩)
    · rfl
    · exact (Entities.ofEntity_eq_iff ha hb).mpr ⟨hname, hindex⟩

end Program

/-- A variable and a struct with the name `x`, of which the second one comes to stand behind
the first when this is simplified. -/
def sharedNameSource : String :=
  "let x = π; struct y \x7b \x7d if true \x7b struct x \x7b \x7d print x; \x7d print x;"

def sharedNameProgram : Program :=
  { statements :=
      [.declareVariable ⟨1⟩ (some (.var ⟨0⟩ .number)), .declareStruct ⟨0⟩, .declareStruct ⟨1⟩,
        .print (.struct ⟨1⟩ (.function [] (.struct ⟨1⟩))), .print (.var ⟨1⟩ .number)]
    entities := ((Entities.initial.addVariable ⟨"x", false, .number⟩).addStruct
      ⟨"y", [], false⟩).addStruct ⟨"x", [], false⟩ }

theorem compile_sharedNameSource : compile sharedNameSource true = .ok sharedNameProgram := by
  cbv

theorem Program.shared_name_iff_x :
    compile sharedNameSource true = .ok sharedNameProgram ∧
      Listing.ofEntity sharedNameProgram.entities (.var ⟨1⟩) =
        Listing.ofEntity sharedNameProgram.entities (.struct ⟨1⟩) ∧
      Listing.ofEntity sharedNameProgram.entities (.var ⟨1⟩) ≠
        Listing.ofEntity sharedNameProgram.entities (.var ⟨0⟩) := by
  refine ⟨compile_sharedNameSource, ?_, ?_⟩
  · exact (shared_name_iff compile_sharedNameSource _ _).1.mpr (.inr ⟨rfl, rfl, rfl, rfl⟩)
  · exact mt (shared_name_iff compile_sharedNameSource _ _).1.mp (by decide)

/-- **There are entities that share a name**: the two last lines of this listing are the same,
but the first one prints the struct and the other one the variable. -/
theorem exists_name_shared : ∃ (source : String) (p : Program) (a b : EntityId),
    compile source true = .ok p ∧ p.entities.HasRow a ∧ p.entities.HasRow b ∧ a ≠ b ∧
      Listing.ofEntity p.entities a = Listing.ofEntity p.entities b ∧
      p.listing = "let x_1: number = π_0;\nstruct y_0 \x7b  \x7d\nstruct x_1 \x7b  \x7d\n" ++
        "print x_1;\nprint x_1;\n" := by
  refine ⟨sharedNameSource, sharedNameProgram, .var ⟨1⟩, .struct ⟨1⟩, compile_sharedNameSource,
    ?_, ?_, ?_, ?_, ?_⟩
  · show 1 < sharedNameProgram.entities.vars.size
    decide
  · show 1 < sharedNameProgram.entities.structs.size
    decide
  · decide
  · rfl
  · cbv

end TypedImp
