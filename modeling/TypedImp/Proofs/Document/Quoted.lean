import TypedImp.Text.Json

/-!
# Strings of a document

Inside the quotes a character is written as itself, or, if it is special, behind a backslash.
No character's text is the beginning of another one's (`eq_of_escape_begins`), and none begins
with a quote, so the characters of a string are known one after the other up to the closing
quote: **a string of a document ends by itself** (`quote_append_inj`).
-/

namespace TypedImp.Json

def specials : List Char := '"' :: '\\' :: (List.range 0x20).map Char.ofNat

theorem mem_specials_of_lt {c : Char} (h : c.toNat < 0x20) : c ∈ specials := by
  refine List.mem_cons_of_mem _ (List.mem_cons_of_mem _ (List.mem_map.mpr ⟨c.toNat, ?_, ?_⟩))
  · exact List.mem_range.mpr h
  · exact Char.ofNat_toNat c

theorem escape_of_notMem {c : Char} (h : c ∉ specials) : escape c = [c] := by
  have hcontrol : ¬ c.toNat < 0x20 := fun hlt => h (mem_specials_of_lt hlt)
  have hne : ∀ d ∈ specials, c ≠ d := fun d hd heq => h (heq ▸ hd)
  rw [escape, if_neg (hne _ (by decide)), if_neg (hne _ (by decide)), if_neg (hne _ (by decide)),
    if_neg (hne _ (by decide)), if_neg (hne _ (by decide)), if_neg (hne _ (by decide)),
    if_neg (hne _ (by decide)), if_neg hcontrol]

theorem head_escape_of_mem {c : Char} (h : c ∈ specials) : (escape c).head? = some '\\' := by
  have hall : specials.all (fun c => (escape c).head? == some '\\') = true := by decide
  exact beq_iff_eq.mp (List.all_eq_true.mp hall c h)

def lead (c : Char) : Char := if c ∈ specials then '\\' else c

theorem exists_escape_eq_cons (c : Char) : ∃ tail, escape c = lead c :: tail := by
  rw [lead]
  split
  · exact List.head?_eq_some_iff.mp (head_escape_of_mem ‹_›)
  · exact ⟨[], escape_of_notMem ‹_›⟩

/-- The text of a special character is not the beginning of that of another one. -/
theorem eq_of_escape_begins_of_mem {c d : Char} (hc : c ∈ specials) (hd : d ∈ specials)
    (h : escape c <+: escape d) : c = d := by
  have hall : specials.all (fun c => specials.all fun d =>
      decide (escape c <+: escape d → c = d)) = true := by decide +kernel
  exact of_decide_eq_true (List.all_eq_true.mp (List.all_eq_true.mp hall c hc) d hd) h

/-- **No character's text is the beginning of another one's.** -/
theorem eq_of_escape_begins {c d : Char} (h : escape c <+: escape d) : c = d := by
  have hbackslash : '\\' ∈ specials := by decide
  have hlead : lead c = lead d := by
    obtain ⟨ctail, hctail⟩ := exists_escape_eq_cons c
    obtain ⟨dtail, hdtail⟩ := exists_escape_eq_cons d
    rw [hctail, hdtail] at h
    exact (List.cons_prefix_cons.mp h).1
  rw [lead, lead] at hlead
  split at hlead <;> rename_i hc
  · split at hlead <;> rename_i hd
    · exact eq_of_escape_begins_of_mem hc hd h
    · exact absurd (hlead ▸ hbackslash) hd
  · split at hlead
    · exact absurd (hlead ▸ hbackslash) hc
    · exact hlead

/-! ### Strings -/

variable {rest rest' : List Char}

/-- The first character of a text is known, and what is behind it. -/
theorem escape_append_inj {c d : Char} (h : escape c ++ rest = escape d ++ rest') :
    c = d ∧ rest = rest' := by
  have heq : c = d := by
    rcases List.append_eq_append_iff.mp h with ⟨tail, htail, -⟩ | ⟨tail, htail, -⟩
    · exact eq_of_escape_begins ⟨tail, htail.symm⟩
    · exact (eq_of_escape_begins ⟨tail, htail.symm⟩).symm
  subst heq
  exact ⟨rfl, List.append_cancel_left h⟩

/-- A quote is no beginning of a character. -/
theorem escape_append_ne_quote (c : Char) : escape c ++ rest ≠ '"' :: rest' := by
  have hquote : '"' ∈ specials := by decide
  obtain ⟨tail, htail⟩ := exists_escape_eq_cons c
  intro h
  rw [htail, List.cons_append, lead] at h
  have hlead := List.head_eq_of_cons_eq h
  split at hlead
  · cases hlead
  · exact absurd (hlead ▸ hquote) ‹_›

/-- **Characters end where the quote is.** -/
theorem flatMap_escape_inj {cs ds : List Char}
    (h : cs.flatMap escape ++ '"' :: rest = ds.flatMap escape ++ '"' :: rest') :
    cs = ds ∧ rest = rest' := by
  induction cs generalizing ds with
  | nil =>
    cases ds with
    | nil => exact ⟨rfl, List.tail_eq_of_cons_eq h⟩
    | cons d ds =>
      rw [List.flatMap_cons, List.append_assoc] at h
      exact absurd h.symm (escape_append_ne_quote d)
  | cons c cs ih =>
    rw [List.flatMap_cons, List.append_assoc] at h
    cases ds with
    | nil => exact absurd h (escape_append_ne_quote c)
    | cons d ds =>
      rw [List.flatMap_cons, List.append_assoc] at h
      obtain ⟨rfl, hbehind⟩ := escape_append_inj h
      obtain ⟨rfl, hrest⟩ := ih hbehind
      exact ⟨rfl, hrest⟩

theorem toList_quote (s : String) :
    (quote s).toList = '"' :: (s.toList.flatMap escape ++ ['"']) := String.toList_ofList

/-- **A string of a document ends by itself.** -/
theorem quote_append_inj {s t : String}
    (h : (quote s).toList ++ rest = (quote t).toList ++ rest') : s = t ∧ rest = rest' := by
  rw [toList_quote, toList_quote, List.cons_append, List.cons_append, List.append_assoc,
    List.append_assoc] at h
  obtain ⟨hchars, hrest⟩ := flatMap_escape_inj (List.tail_eq_of_cons_eq h)
  exact ⟨String.toList_inj.mp hchars, hrest⟩

end TypedImp.Json
