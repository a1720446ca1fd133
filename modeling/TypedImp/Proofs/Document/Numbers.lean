import TypedImp.Compile
import TypedImp.Proofs.Document.Program
import TypedImp.Proofs.Joined.Tokens

/-!
# Numbers that are not finite

A program with finite numbers only is the same when blurred, so it is known by its document.
`Program.dump_text_eq_iff`: **two programs have one document exactly if they are the same up to
numbers that are not finite.**

Simplifying makes such numbers, and there are programs that differ in nothing else: what is
printed by `print 1 / 0;` and by `print 0 / 0;` is infinite or no number, and `null` in both
documents (`exists_dump_shared`).
-/

namespace TypedImp

open Json

/-! ### Finite numbers -/

namespace Expr

theorem blurredNumber_of_isFinite {x : Float} (hx : x.isFinite = true) : blurredNumber x = x :=
  if_pos hx

theorem isFinite_blurredNumber (x : Float) : (blurredNumber x).isFinite = x.isFinite := by
  cases hx : x.isFinite with
  | true => rw [blurredNumber_of_isFinite hx, hx]
  | false =>
    rw [blurredNumber, hx, if_neg Bool.false_ne_true]
    rfl

/-- **Which numbers a document does not tell apart**: those that are not finite. -/
theorem blurredNumber_eq_iff {x y : Float} : blurredNumber x = blurredNumber y ↔
    x = y ∨ x.isFinite = false ∧ y.isFinite = false := by
  constructor
  · intro h
    have hfinite : x.isFinite = y.isFinite := by
      rw [← isFinite_blurredNumber x, h, isFinite_blurredNumber]
    cases hx : x.isFinite with
    | true =>
      rw [blurredNumber_of_isFinite hx, blurredNumber_of_isFinite (hfinite ▸ hx)] at h
      exact .inl h
    | false => exact .inr ⟨rfl, hfinite ▸ hx⟩
  · rintro (rfl | ⟨hx, hy⟩)
    · rfl
    · rw [blurredNumber, blurredNumber, hx, hy]
      rfl

theorem parts_blurred (e : Expr) : e.blurred.parts = e.parts.map blurred := by
  cases e <;> simp [blurred, parts, blurredAll_eq_map]

theorem nested_blurred (e : Expr) : e.blurred.nested = e.nested.map blurred := by
  induction e using parts_induction with
  | step e ih =>
    rw [nested_eq_cons, nested_eq_cons e, parts_blurred, List.map_cons, List.map_flatMap,
      List.flatMap_map, List.flatMap_congr ih]

theorem number?_blurred (e : Expr) : e.blurred.number? = e.number?.map blurredNumber := by
  cases e <;> rfl

def HasFiniteNumbers (e : Expr) : Prop := ∀ e' ∈ e.nested, ∀ x ∈ e'.number?, x.isFinite = true

/-- A document tells an expression with finite numbers as it is. -/
theorem HasFiniteNumbers.blurred_eq {e : Expr} (h : e.HasFiniteNumbers) : e.blurred = e := by
  have hall {es : List Expr} (h : ∀ e ∈ es, e.blurred = e) : blurredAll es = es := by
    rw [blurredAll_eq_map, List.map_congr_left h, List.map_id'']
    exact fun _ => rfl
  induction e using parts_induction with
  | step e ih =>
    have hparts : ∀ part ∈ e.parts, part.blurred = part :=
      fun part hp => ih part hp fun e' he' => h e' (mem_nested_of_part hp he')
    cases e with
    | number x ty =>
      have hx := h _ (mem_nested_self _) x rfl
      rw [blurred, blurredNumber_of_isFinite hx]
    | _ => simp_all [blurred, parts]

end Expr

namespace Program

variable {p q : Program}

/-- **All numbers in a program are finite.** -/
def HasFiniteNumbers (p : Program) : Prop := ∀ e ∈ p.exprs, ∀ x ∈ e.number?, x.isFinite = true

theorem HasFiniteNumbers.blurred_eq (h : p.HasFiniteNumbers) : p.blurred = p := by
  have hstatements : ∀ s ∈ p.statements, s.blurred = s := by
    refine fun s hs => Stmt.mapExprs_eq_self fun s' hs' e he => ?_
    refine Expr.HasFiniteNumbers.blurred_eq fun e' he' => h e' ?_
    exact mem_exprs_iff.mpr ⟨s', Stmt.mem_nestedAll.mpr ⟨s, hs, hs'⟩, e, he, he'⟩
  rw [blurred, List.map_congr_left hstatements, List.map_id'']
  exact fun _ => rfl

theorem stmts_blurred (p : Program) : p.blurred.stmts = p.stmts.map Stmt.blurred := by
  rw [stmts, stmts, blurred, Stmt.nestedAll_eq_flatMap, Stmt.nestedAll_eq_flatMap,
    List.flatMap_map, List.map_flatMap]
  exact List.flatMap_congr fun s _ => s.nested_mapExprs

theorem exprs_blurred (p : Program) : p.blurred.exprs = p.exprs.map Expr.blurred := by
  rw [exprs, exprs, stmts_blurred, List.flatMap_map, List.map_flatMap]
  refine List.flatMap_congr fun s _ => ?_
  rw [Stmt.blurred, Stmt.exprs_mapExprs, List.flatMap_map, List.map_flatMap]
  exact List.flatMap_congr fun e _ => e.nested_blurred

theorem HasFiniteNumbers.of_blurred (h : p.blurred.HasFiniteNumbers) : p.HasFiniteNumbers := by
  intro e he x hx
  rw [← Expr.isFinite_blurredNumber]
  refine h e.blurred ?_ _ ?_
  · rw [exprs_blurred]
    exact List.mem_map_of_mem he
  · rw [Expr.number?_blurred, hx]
    rfl

/-- **Two programs have one document** exactly if they are the same up to numbers that are not
finite; they are the same if one of them has no such number. -/
theorem dump_text_eq_iff (p q : Program) :
    (p.dump.text = q.dump.text ↔ p.blurred = q.blurred) ∧
      (p.HasFiniteNumbers → (p.dump.text = q.dump.text ↔ p = q)) := by
  have hiff : p.dump.text = q.dump.text ↔ p.blurred = q.blurred :=
    text_eq_iff.trans written_dump_eq_iff
  refine ⟨hiff, fun hp => ⟨fun h => ?_, fun h => h ▸ rfl⟩⟩
  have hblurred := hiff.mp h
  rw [hp.blurred_eq] at hblurred
  have hq : q.HasFiniteNumbers := .of_blurred (hblurred ▸ hp)
  rw [hblurred, hq.blurred_eq]

end Program

def printedNumber (x : Float) : Program := ⟨[.print (.number x .number)], .initial⟩

theorem printedNumber_injective {x y : Float} (h : printedNumber x = printedNumber y) : x = y := by
  injection h with hstatements
  injection hstatements with hprint
  injection hprint with hliteral
  injection hliteral

theorem hasFiniteNumbers_printedNumber {x : Float} (hx : x.isFinite = true) :
    (printedNumber x).HasFiniteNumbers := by
  have hexprs : (printedNumber x).exprs = [.number x .number] := rfl
  intro e he y hy
  rw [hexprs, List.mem_singleton] at he
  rw [he] at hy
  cases hy
  exact hx

theorem blurred_printedNumber {x y : Float} (hx : x.isFinite = false) (hy : y.isFinite = false) :
    (printedNumber x).blurred = (printedNumber y).blurred := by
  have hblurred := Expr.blurredNumber_eq_iff.mpr (.inr ⟨hx, hy⟩)
  show printedNumber (Expr.blurredNumber x) = printedNumber (Expr.blurredNumber y)
  rw [hblurred]

/-- The two zeros are told apart, and the two infinities are not. -/
theorem Program.dump_text_eq_iff_zeros : (printedNumber 0).HasFiniteNumbers ∧
    (printedNumber 0).dump.text ≠ (printedNumber (-0)).dump.text ∧
    (printedNumber (1 / 0)).dump.text = (printedNumber (-1 / 0)).dump.text := by
  have hfinite : (printedNumber 0).HasFiniteNumbers := hasFiniteNumbers_printedNumber rfl
  refine ⟨hfinite, fun h => ?_, (dump_text_eq_iff _ _).1.mpr (blurred_printedNumber rfl rfl)⟩
  have hparts := congrArg Binary64.parts
    (printedNumber_injective (((dump_text_eq_iff _ _).2 hfinite).mp h))
  rw [Binary64.parts_neg, Binary64.parts_zero] at hparts
  cases hparts

/-! ### Numbers that are not finite -/

def quotientTokens (x y : Float) : List Token :=
  [⟨.symbol .printWord, ⟨⟨0, 1, 1⟩, 5⟩⟩, ⟨.number x, ⟨⟨6, 1, 7⟩, 7⟩⟩,
    ⟨.symbol .slash, ⟨⟨8, 1, 9⟩, 9⟩⟩, ⟨.number y, ⟨⟨10, 1, 11⟩, 11⟩⟩,
    ⟨.symbol .semicolon, ⟨⟨11, 1, 12⟩, 12⟩⟩, ⟨.eof, ⟨⟨12, 1, 13⟩, 12⟩⟩]

def quotientTree (x y : Float) : List Tree.Stmt :=
  [.print (.binary .div (.number x ⟨⟨6, 1, 7⟩, 7⟩) (.number y ⟨⟨10, 1, 11⟩, 11⟩)
    ⟨⟨6, 1, 7⟩, 11⟩) ⟨⟨0, 1, 1⟩, 12⟩]

theorem ofTokens_quotient (x y : Float) :
    Tree.ofTokens (quotientTokens x y) = .ok (quotientTree x y) := by
  cbv

/-- The quotient is known before it is printed. -/
theorem compile_quotient {source : String} {x y : Float}
    (h : Token.ofSource source = quotientTokens x y) :
    compile source true = .ok (printedNumber (x / y)) := by
  rw [compile, parse, Tree.ofSource, h, ofTokens_quotient]
  rfl

theorem tokensFrom_over_zero :
    Token.tokensFrom ⟨7, 1, 8⟩ " / 0;".toList = (quotientTokens 0 0).drop 2 := by
  have hslash : (Token.splitBlank " / 0;".toList).2 = '/' :: " 0;".toList := rfl
  have hzero : (Token.splitBlank (Token.lexeme '/' " 0;".toList).rest).2 = '0' :: ";".toList := rfl
  have hsemicolon : (Token.splitBlank (Token.lexeme '0' ";".toList).rest).2 = ';' :: [] := rfl
  have heof : (Token.splitBlank (Token.lexeme ';' []).rest).2 = [] := rfl
  rw [Token.tokensFrom_of_cons _ hslash, Token.tokensFrom_of_cons _ hzero,
    Token.tokensFrom_of_cons _ hsemicolon, Token.tokensFrom_of_nil _ heof]
  rfl

theorem ofSource_one_over_zero : Token.ofSource "print 1 / 0;" = quotientTokens 1 0 := by
  have hprint : (Token.splitBlank "print 1 / 0;".toList).2 = 'p' :: "rint 1 / 0;".toList := rfl
  have hone : (Token.splitBlank (Token.lexeme 'p' "rint 1 / 0;".toList).rest).2 =
      '1' :: " / 0;".toList := rfl
  rw [Token.ofSource, Token.tokensFrom_of_cons _ hprint, Token.tokensFrom_of_cons _ hone]
  show _ :: _ :: Token.tokensFrom ⟨7, 1, 8⟩ " / 0;".toList = _
  rw [tokensFrom_over_zero]
  rfl

theorem ofSource_zero_over_zero : Token.ofSource "print 0 / 0;" = quotientTokens 0 0 := by
  have hprint : (Token.splitBlank "print 0 / 0;".toList).2 = 'p' :: "rint 0 / 0;".toList := rfl
  have hzero : (Token.splitBlank (Token.lexeme 'p' "rint 0 / 0;".toList).rest).2 =
      '0' :: " / 0;".toList := rfl
  rw [Token.ofSource, Token.tokensFrom_of_cons _ hprint, Token.tokensFrom_of_cons _ hzero]
  show _ :: _ :: Token.tokensFrom ⟨7, 1, 8⟩ " / 0;".toList = _
  rw [tokensFrom_over_zero]
  rfl

/-- **Two programs that differ have one document**: one prints a number that is infinite, and the
other one what is no number. -/
theorem exists_dump_shared : ∃ p q : Program, compile "print 1 / 0;" true = .ok p ∧
    compile "print 0 / 0;" true = .ok q ∧ p ≠ q ∧ p.dump.text = q.dump.text := by
  refine ⟨printedNumber (1 / 0), printedNumber (0 / 0), compile_quotient ofSource_one_over_zero,
    compile_quotient ofSource_zero_over_zero, fun h => ?_, ?_⟩
  · have hinfinite : Binary64.parts (1 / 0) = .infinity .positive := rfl
    have hnone : Binary64.parts (0 / 0) = .notANumber := rfl
    rw [printedNumber_injective h, hnone] at hinfinite
    cases hinfinite
  · exact text_eq_iff.mpr (Program.written_dump_eq_iff.mpr (blurred_printedNumber rfl rfl))

end TypedImp
