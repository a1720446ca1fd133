import TypedImp.Grammar.Rules
import TypedImp.Proofs.Listing.Kinds

/-!
# Reading given tokens

`Reads p ks rest P` says what a parser does where the tokens `ks` come next and `rest`
behind them: it passes `ks` and nothing else, and its value is one that `P` holds of.
That more tokens come, the last of them the end of the input, is `Ended rest`; without it
the last token would not be passed.

Contracts are put together along `>>=`: the tokens of the first parser are read where those
of the second one come behind (`Reads.bind`).  The two kinds of list have contracts that
follow from those of their items, **`reads_separated`** and **`reads_itemsUntil`**.
-/

namespace TypedImp.Grammar

open TypedImp.Token (Kind)

/-! ### Tokens from a place on -/

def Ended (ks : List Kind) : Prop := ∃ front, ks = front ++ [.eof]

theorem Ended.ne_nil {ks : List Kind} (h : Ended ks) : ks ≠ [] := by
  obtain ⟨front, rfl⟩ := h
  simp

theorem Ended.append {ks : List Kind} (h : Ended ks) (front : List Kind) : Ended (front ++ ks) := by
  obtain ⟨front', rfl⟩ := h
  exact ⟨front ++ front', by rw [List.append_assoc]⟩

theorem Ended.cons {ks : List Kind} (h : Ended ks) (k : Kind) : Ended (k :: ks) := h.append [k]

theorem Ended.tail {k : Kind} {ks : List Kind} (h : Ended (k :: ks)) (hk : k ≠ .eof) :
    Ended ks := by
  obtain ⟨front, hfront⟩ := h
  cases front with
  | nil =>
    cases hfront
    exact absurd rfl hk
  | cons k' front =>
    cases hfront
    exact ⟨front, rfl⟩

theorem Ended.of_append {front ks : List Kind} (h : Ended (front ++ ks)) (hks : ks ≠ []) :
    Ended ks := by
  obtain ⟨front', h⟩ := h
  rcases List.eq_nil_or_concat ks with rfl | ⟨others, last, rfl⟩
  · exact absurd rfl hks
  · rw [List.concat_eq_append] at h ⊢
    rw [← List.append_assoc] at h
    exact ⟨others, by rw [(List.append_inj' h rfl).2]⟩

def Cursor.kinds (cursor : Cursor) : List Kind :=
  cursor.current.kind :: cursor.ahead.map Token.kind

theorem Cursor.kinds_step {cursor : Cursor} {k : Kind} {ks : List Kind}
    (h : cursor.kinds = k :: ks) (hks : ks ≠ []) : cursor.step.kinds = ks := by
  obtain ⟨current, ahead⟩ := cursor
  cases ahead with
  | nil =>
    cases h
    exact absurd rfl hks
  | cons next ahead =>
    cases h
    rfl

theorem Cursor.current_kind {cursor : Cursor} {k : Kind} {ks : List Kind}
    (h : cursor.kinds = k :: ks) : cursor.current.kind = k := by
  cases h
  rfl

/-! ### Tokens with commas between them -/

/-- **Items with commas between them.**  A comma may stand behind the last one. -/
inductive Separated : List (List Kind) → List Kind → Prop where
  | nil : Separated [] []
  | last (ks : List Kind) : Separated [ks] ks
  | cons {kss : List (List Kind)} {others : List Kind} (ks : List Kind) (h : Separated kss others) :
    Separated (ks :: kss) (ks ++ .symbol .comma :: others)

theorem separated_commas (kss : List (List Kind)) : Separated kss (Listing.commas kss) := by
  induction kss with
  | nil => exact .nil
  | cons ks kss ih =>
    cases kss with
    | nil => exact .last ks
    | cons ks' kss => exact .cons ks ih

/-- Tokens with commas between them begin with the first item, if there is one. -/
theorem Separated.eq_nil_or {kss : List (List Kind)} {ks : List Kind} (h : Separated kss ks) :
    ks = [] ∨ ∃ first ∈ kss, ∃ others, ks = first ++ others := by
  cases h with
  | nil => exact .inl rfl
  | last => exact .inr ⟨ks, List.mem_cons_self, [], (List.append_nil ks).symm⟩
  | cons first h => exact .inr ⟨first, List.mem_cons_self, _, rfl⟩

namespace Parser

variable {α β : Type}

/-! ### Contracts -/

/-- **What a parser reads**: the tokens `ks`, where `rest` comes behind them, as a value that
`P` holds of. -/
def Reads (p : Parser α) (ks rest : List Kind) (P : α → Prop) : Prop :=
  ∀ cursor : Cursor, cursor.kinds = ks ++ rest →
    ∃ value behind, p cursor = .done value behind ∧ behind.kinds = rest ∧ P value

variable {p : Parser α} {f : α → Parser β} {P : α → Prop} {Q : β → Prop} {k : Kind}
  {ks ks' rest : List Kind}

theorem Reads.bind (hp : Reads p ks (ks' ++ rest) P)
    (hf : ∀ value, P value → Reads (f value) ks' rest Q) : Reads (p >>= f) (ks ++ ks') rest Q := by
  intro cursor hc
  rw [List.append_assoc] at hc
  obtain ⟨value, middle, hpc, hmiddle, hvalue⟩ := hp cursor hc
  obtain ⟨result, behind, hfc, hbehind, hresult⟩ := hf value hvalue middle hmiddle
  refine ⟨result, behind, ?_, hbehind, hresult⟩
  rw [bind_apply, hpc]
  exact hfc

/-- The first parser reads one token. -/
theorem Reads.bind_cons (hp : Reads p [k] (ks ++ rest) P)
    (hf : ∀ value, P value → Reads (f value) ks rest Q) : Reads (p >>= f) (k :: ks) rest Q :=
  Reads.bind hp hf

/-- The first parser reads nothing. -/
theorem Reads.bind_nil (hp : Reads p [] (ks ++ rest) P)
    (hf : ∀ value, P value → Reads (f value) ks rest Q) : Reads (p >>= f) ks rest Q :=
  Reads.bind hp hf

/-- The first parser reads nothing, and its value is known. -/
theorem Reads.bind_known {value : α} (hp : Reads p [] (ks ++ rest) (· = value))
    (hf : Reads (f value) ks rest Q) : Reads (p >>= f) ks rest Q :=
  Reads.bind_nil hp fun _ h => h ▸ hf

/-- The first parser reads one token, and its value is known. -/
theorem Reads.bind_cons_known {value : α} (hp : Reads p [k] (ks ++ rest) (· = value))
    (hf : Reads (f value) ks rest Q) : Reads (p >>= f) (k :: ks) rest Q :=
  Reads.bind_cons hp fun _ h => h ▸ hf

/-- The second parser reads nothing. -/
theorem Reads.bind_pure {value : α → β} (hp : Reads p ks rest P)
    (hv : ∀ a, P a → Q (value a)) : Reads (p >>= fun a => pure (value a)) ks rest Q := by
  intro cursor hc
  obtain ⟨a, behind, hpc, hbehind, ha⟩ := hp cursor hc
  refine ⟨value a, behind, ?_, hbehind, hv a ha⟩
  rw [bind_apply, hpc]
  rfl

theorem Reads.map {g : α → β} (hp : Reads p ks rest P) (h : ∀ a, P a → Q (g a)) :
    Reads (g <$> p) ks rest Q :=
  hp.bind_pure h

theorem Reads.mono {P' : α → Prop} (hp : Reads p ks rest P) (h : ∀ a, P a → P' a) :
    Reads p ks rest P' := by
  intro cursor hc
  obtain ⟨a, behind, hpc, hbehind, ha⟩ := hp cursor hc
  exact ⟨a, behind, hpc, hbehind, h a ha⟩

theorem reads_pure {a : α} (h : P a) : Reads (pure a) [] rest P :=
  fun cursor hc => ⟨a, cursor, rfl, hc, h⟩

theorem reads_peek (h : ks.head? = some k) : Reads peek [] ks (· = k) := by
  intro cursor hc
  refine ⟨cursor.current.kind, cursor, rfl, hc, ?_⟩
  rw [List.nil_append] at hc
  rw [← hc] at h
  exact Option.some.inj h

theorem reads_advance (hr : Ended rest) : Reads advance [k] rest fun _ => True :=
  fun _ hc => ⟨_, _, rfl, Cursor.kinds_step hc hr.ne_nil, trivial⟩

theorem reads_expect {s : Symbol} (hr : Ended rest) :
    Reads (expect s) [.symbol s] rest fun _ => True := by
  intro cursor hc
  refine ⟨cursor.current.span, cursor.step, ?_, Cursor.kinds_step hc hr.ne_nil, trivial⟩
  rw [expect, if_pos (by rw [Cursor.current_kind hc, Kind.isSymbol_symbol, beq_self_eq_true])]

theorem reads_accept {s : Symbol} (hr : Ended rest) :
    Reads (accept s) [.symbol s] rest (· = true) := by
  intro cursor hc
  refine ⟨true, cursor.step, ?_, Cursor.kinds_step hc hr.ne_nil, rfl⟩
  rw [accept, if_pos (by rw [Cursor.current_kind hc, Kind.isSymbol_symbol, beq_self_eq_true])]

theorem reads_accept_other {s : Symbol} (h : rest.head? ≠ some (.symbol s)) :
    Reads (accept s) [] rest (· = false) := by
  intro cursor hc
  refine ⟨false, cursor, ?_, hc, rfl⟩
  rw [accept, if_neg]
  rw [Kind.isSymbol_iff]
  intro hk
  refine h ?_
  rw [List.nil_append] at hc
  rw [← hc, ← hk]
  rfl

theorem Reads.attempt (hp : Reads p ks rest P) :
    Reads (attempt p) ks rest fun found => ∃ value, found = some value ∧ P value := by
  intro cursor hc
  obtain ⟨a, behind, hpc, hbehind, ha⟩ := hp cursor hc
  exact ⟨some a, behind, by rw [Parser.attempt, hpc], hbehind, a, rfl, ha⟩

theorem reads_closes {closing : Symbol} (h : ks.head? = some k) :
    Reads (closes closing) [] ks (· = (k.isSymbol closing || k.isEof)) := by
  intro cursor hc
  refine ⟨_, cursor, rfl, hc, ?_⟩
  rw [List.nil_append] at hc
  rw [← hc] at h
  rw [Option.some.inj h]

/-! ### Lists -/

section

variable {A B : Type} {kinds : A → List Kind} {item : Parser α} {tree : A → B} {bare : α → B}

/-- **Items with commas between them** are read one by one, also if a comma comes behind the
last one. -/
theorem reads_separated {closing : Symbol} {kss : List (List Kind)} (hks : Separated kss ks)
    {items : List (List Kind × B)} (hkss : items.map Prod.fst = kss) {N : Nat}
    (hcomma : closing ≠ .comma)
    (hstart : ∀ p ∈ items, ∃ k ks, p.1 = k :: ks ∧ k.isSymbol closing = false ∧ k.isEof = false)
    (hitem : ∀ p ∈ items, ∀ others, Ended others → (p.1 ++ others).length ≤ N →
      (others.head? = some (.symbol .comma) ∨ others.head? = some (.symbol closing)) →
        Reads item p.1 others fun value => bare value = p.2)
    (hr : Ended rest) (hN : (ks ++ .symbol closing :: rest).length ≤ N) {steps : Nat}
    (hsteps : (ks ++ .symbol closing :: rest).length ≤ steps) :
    Reads (commaItems closing item steps) ks (.symbol closing :: rest)
      fun values => values.map bare = items.map Prod.snd := by
  induction hks generalizing items steps with
  | nil =>
    obtain rfl := List.map_eq_nil_iff.mp hkss
    cases steps with
    | zero => simp at hsteps
    | succ steps =>
      refine Reads.bind_known (reads_closes rfl) ?_
      rw [Kind.isSymbol_symbol, beq_self_eq_true]
      exact reads_pure rfl
  | last ks =>
    obtain ⟨p, items, rfl, rfl, hnil⟩ := List.map_eq_cons_iff.mp hkss
    obtain rfl := List.map_eq_nil_iff.mp hnil
    cases steps with
    | zero => simp at hsteps
    | succ steps =>
      obtain ⟨k, ks, hks, hclosing, heof⟩ := hstart p List.mem_cons_self
      have hlast := hitem p List.mem_cons_self (.symbol closing :: rest) (hr.cons _) hN (.inr rfl)
      have hclose : (Kind.symbol closing :: rest).head? ≠ some (.symbol .comma) := by
        simpa using hcomma
      refine Reads.bind_known (reads_closes (by rw [hks]; rfl)) ?_
      rw [hclosing, heof, ← List.append_nil p.1]
      refine Reads.bind hlast fun first hfirst =>
        Reads.bind_known (reads_accept_other hclose) ?_
      exact reads_pure (by simp [hfirst])
  | @cons kss others ks h ih =>
    obtain ⟨p, items, rfl, rfl, hmap⟩ := List.map_eq_cons_iff.mp hkss
    rw [List.append_assoc, List.cons_append] at hN hsteps
    cases steps with
    | zero => simp at hsteps
    | succ steps =>
      obtain ⟨k, ks, hks, hclosing, heof⟩ := hstart p List.mem_cons_self
      have hothers := ih hmap (fun q hq => hstart q (List.mem_cons_of_mem _ hq))
        (fun q hq => hitem q (List.mem_cons_of_mem _ hq))
        (by rw [List.length_append, List.length_cons] at hN; omega)
        (show _ ≤ steps by rw [List.length_append, List.length_cons] at hsteps; omega)
      have hbehind := (hr.cons (.symbol closing)).append others
      have hfirst := hitem p List.mem_cons_self _ (hbehind.cons _) hN (.inl rfl)
      refine Reads.bind_known (reads_closes (by rw [hks]; rfl)) ?_
      rw [hclosing, heof]
      refine Reads.bind hfirst fun first hvalue => ?_
      refine Reads.bind_cons_known (reads_accept hbehind) ?_
      refine hothers.bind_pure fun values hvalues => ?_
      rw [List.map_cons, List.map_cons, hvalue, hvalues]

/-- **Items up to a token that ends them** are read one by one.  `Next` says what may come
behind an item. -/
theorem reads_itemsUntil {ends : Parser Bool} {Next : List Kind → Prop} {as : List A} {N : Nat}
    (hends : Reads ends [] rest (· = true)) (hlast : Next rest)
    (hstart : ∀ a ∈ as, kinds a ≠ [] ∧ ∀ others,
      Reads ends [] (kinds a ++ others) (· = false) ∧ Next (kinds a ++ others))
    (hitem : ∀ a ∈ as, ∀ others, Ended others → (kinds a ++ others).length ≤ N → Next others →
      Reads item (kinds a) others fun value => bare value = tree a)
    (hr : Ended rest) (hN : (as.flatMap kinds ++ rest).length ≤ N) {steps : Nat}
    (hsteps : (as.flatMap kinds ++ rest).length ≤ steps) :
    Reads (itemsUntil ends item steps) (as.flatMap kinds) rest
      fun values => values.map bare = as.map tree := by
  induction as generalizing steps with
  | nil =>
    cases steps with
    | zero => exact absurd (List.length_eq_zero_iff.mp (Nat.le_zero.mp hsteps)) hr.ne_nil
    | succ steps =>
      exact Reads.bind_known hends (reads_pure rfl)
  | cons a as ih =>
    obtain ⟨hne, hfirst⟩ := hstart a List.mem_cons_self
    have hpos := List.length_pos_iff.mpr hne
    rw [List.flatMap_cons, List.append_assoc] at hN hsteps
    rw [List.length_append] at hsteps
    cases steps with
    | zero => omega
    | succ steps =>
      have hmem (b : A) (hb : b ∈ as) : b ∈ a :: as := List.mem_cons_of_mem _ hb
      have hothers := ih (fun b hb => hstart b (hmem b hb)) (fun b hb => hitem b (hmem b hb))
        (by rw [List.length_append] at hN; omega)
        (show _ ≤ steps by omega)
      have hnext : Next (as.flatMap kinds ++ rest) := by
        cases as with
        | nil => exact hlast
        | cons b as =>
          rw [List.flatMap_cons, List.append_assoc]
          exact ((hstart b (hmem b List.mem_cons_self)).2 _).2
      have ha := hitem a List.mem_cons_self _ (hr.append _) hN hnext
      rw [List.flatMap_cons]
      refine Reads.bind_known (by rw [List.append_assoc]; exact (hfirst _).1) ?_
      refine Reads.bind ha fun first hvalue => hothers.bind_pure fun values hvalues => ?_
      rw [List.map_cons, List.map_cons, hvalue, hvalues]

end

end Parser

open TypedImp.Grammar.Parser

theorem reads_identifier {name : String} {rest : List Kind} (hr : Ended rest) :
    Reads identifier [.name name] rest fun value => value.bare = .of name := by
  intro cursor hc
  refine ⟨⟨name, cursor.current.span⟩, cursor.step, ?_, Cursor.kinds_step hc hr.ne_nil, rfl⟩
  rw [identifier, Cursor.current_kind hc]

end TypedImp.Grammar
