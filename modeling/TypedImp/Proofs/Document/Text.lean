import TypedImp.Proofs.Decimal.Document
import TypedImp.Proofs.Document.Quoted

/-!
# Documents are known by their texts

A float that is not finite is written as `null`; `written` is a document with `null` in its
place.  **Two documents have one text exactly if they are written as one document**
(`text_eq_iff`).

Behind a value comes a comma, a new line or nothing (`Ends`).  With that a value ends by itself
(`Delimited`): a string, an array and an object at their closing sign, and every other value, a
word, in front of what ends it.  The kind of a value shows in its first character
(`opening?_eq`), and what a word stands for can be read off it (`ofWord_write`).
-/

namespace TypedImp.Json

/-! ### Trees -/

/-- The induction over a document: what is to be shown of it may be assumed of its parts. -/
theorem induction {P : Json → Prop} (null : P .null) (bool : ∀ value, P (.bool value))
    (nat : ∀ value, P (.nat value)) (float : ∀ value, P (.float value))
    (string : ∀ value, P (.string value))
    (array : ∀ items, (∀ item ∈ items, P item) → P (.array items))
    (object : ∀ members, (∀ part ∈ members, P part.2) → P (.object members)) (j : Json) : P j :=
  @Json.rec P (fun items => ∀ item ∈ items, P item) (fun members => ∀ part ∈ members, P part.2)
    (fun part => P part.2) null bool nat float string array object (by simp)
    (fun _ _ hitem hitems => by simpa using ⟨hitem, hitems⟩) (by simp)
    (fun _ _ hpart hmembers => by
      intro part hp
      rcases List.mem_cons.mp hp with rfl | hp
      · exact hpart
      · exact hmembers part hp)
    (fun _ _ hvalue => hvalue) j

theorem writeItems_eq_map (depth : Nat) (items : List Json) :
    writeItems depth items = items.map (write depth) := by
  induction items with
  | nil => rfl
  | cons item items ih => rw [writeItems, ih, List.map_cons]

def member (depth : Nat) (part : String × Json) : String :=
  quote part.1 ++ ": " ++ write depth part.2

theorem writeMembers_eq_map (depth : Nat) (members : List (String × Json)) :
    writeMembers depth members = members.map (member depth) := by
  induction members with
  | nil => rfl
  | cons part members ih => rw [writeMembers, ih, List.map_cons, member]

/-! ### What is written -/

mutual

/-- **A document as it is written**: a float that is not finite is `null`. -/
def written : Json → Json
  | null => null
  | bool value => bool value
  | nat value => nat value
  | float value => if value.isFinite then float value else null
  | string value => string value
  | array items => array (writtenItems items)
  | object members => object (writtenMembers members)

def writtenItems : List Json → List Json
  | [] => []
  | item :: items => item.written :: writtenItems items

def writtenMembers : List (String × Json) → List (String × Json)
  | [] => []
  | (name, value) :: members => (name, value.written) :: writtenMembers members

end

theorem writtenItems_eq_map (items : List Json) : writtenItems items = items.map written := by
  induction items with
  | nil => rfl
  | cons item items ih => rw [writtenItems, ih, List.map_cons]

theorem writtenMembers_eq_map (members : List (String × Json)) :
    writtenMembers members = members.map fun part => (part.1, part.2.written) := by
  induction members with
  | nil => rfl
  | cons part members ih => rw [writtenMembers, ih, List.map_cons]

theorem write_written (j : Json) (depth : Nat) : write depth j.written = write depth j := by
  induction j using induction generalizing depth with
  | null | bool | nat | string => rfl
  | float x =>
    rw [written]
    split
    · rfl
    · rename_i hx
      have hnone := Decimal.dumpText?_eq_none_iff.mpr (Bool.not_eq_true _ ▸ hx)
      rw [write, write, hnone]
      rfl
  | array items ih =>
    have hitems : (items.map written).map (write (depth + 1)) = items.map (write (depth + 1)) := by
      rw [List.map_map]
      exact List.map_congr_left fun item hitem => ih item hitem (depth + 1)
    rw [written, write, write, writeItems_eq_map, writeItems_eq_map, writtenItems_eq_map, hitems]
  | object members ih =>
    have hmembers : (members.map fun part => (part.1, part.2.written)).map (member (depth + 1)) =
        members.map (member (depth + 1)) := by
      rw [List.map_map]
      refine List.map_congr_left fun part hp => ?_
      rw [Function.comp_apply, member, member, ih part hp]
    rw [written, write, write, writeMembers_eq_map, writeMembers_eq_map, writtenMembers_eq_map,
      hmembers]

/-! ### Texts that end by themselves -/

/-- **What may stand behind a value**: a comma, a new line, or nothing. -/
def Ends (rest : List Char) : Prop := ∀ c ∈ rest.head?, c = ',' ∨ c = '\n'

section

variable {α β : Type}

/-- **A text that ends by itself**: whatever stands behind it, it is known how far it goes and
what it is the text of. -/
def Delimited (text : α → List Char) (sense : α → β) (a : α) : Prop :=
  ∀ b rest rest', Ends rest → Ends rest' → text a ++ rest = text b ++ rest' →
    sense a = sense b ∧ rest = rest'

variable {text : α → List Char} {sense : α → β} {indent closing rest rest' : List Char}

/-- The lines behind the first one, and the closing sign. -/
def further (text : α → List Char) (indent closing : List Char) : List α → List Char
  | [] => '\n' :: closing
  | a :: as => ',' :: (indent ++ (text a ++ further text indent closing as))

theorem ends_further (as : List α) : Ends (further text indent closing as) := by
  cases as with
  | nil => exact fun c hc => .inr (Option.some.inj hc).symm
  | cons a as => exact fun c hc => .inl (Option.some.inj hc).symm

/-- **Lines end by themselves** at the closing sign if each of them does. -/
theorem further_inj {as bs : List α} (h : ∀ a ∈ as, Delimited text sense a)
    (heq : further text indent (closing ++ rest) as = further text indent (closing ++ rest') bs) :
    as.map sense = bs.map sense ∧ rest = rest' := by
  induction as generalizing bs with
  | nil =>
    cases bs with
    | nil => exact ⟨rfl, List.append_cancel_left (List.tail_eq_of_cons_eq heq)⟩
    | cons b bs => exact absurd (List.head_eq_of_cons_eq heq) (by decide)
  | cons a as ih =>
    cases bs with
    | nil => exact absurd (List.head_eq_of_cons_eq heq) (by decide)
    | cons b bs =>
      obtain ⟨hsense, hbehind⟩ := h a List.mem_cons_self b _ _ (ends_further as) (ends_further bs)
        (List.append_cancel_left (List.tail_eq_of_cons_eq heq))
      obtain ⟨hmap, hrest⟩ := ih (fun a ha => h a (List.mem_cons_of_mem _ ha)) hbehind
      exact ⟨by rw [List.map_cons, List.map_cons, hsense, hmap], hrest⟩

end

/-! ### Brackets -/

section

variable {α β : Type} {line : α → String} {sense : α → β} {opening closing : String} {depth : Nat}
  {rest rest' : List Char}

theorem toList_newline (depth : Nat) :
    (newline depth).toList = '\n' :: List.replicate (2 * depth) ' ' := by
  rw [newline, String.toList_append]
  exact congrArg ('\n' :: ·) String.toList_ofList

theorem intercalate_append (sep close : List Char) (l : List Char) (ls : List (List Char)) :
    sep.intercalate (l :: ls) ++ close = l ++ (ls.flatMap (sep ++ ·) ++ close) := by
  induction ls generalizing l with
  | nil => simp [List.intercalate]
  | cons l' ls ih =>
    rw [List.intercalate_cons_cons, List.append_assoc, ih, List.flatMap_cons]
    simp only [List.append_assoc]

theorem further_eq_flatMap (indent close : List Char) (as : List α) :
    further (fun a => (line a).toList) indent close as =
      as.flatMap (fun a => ',' :: (indent ++ (line a).toList)) ++ '\n' :: close := by
  induction as with
  | nil => rfl
  | cons a as ih => simp [further, ih]

/-- The text behind an opening bracket, where there are lines. -/
theorem toList_bracketed_cons (a : α) (as : List α) (rest : List Char) :
    (bracketed opening closing depth ((a :: as).map line)).toList ++ rest =
      opening.toList ++ ((newline (depth + 1)).toList ++ ((line a).toList ++
        further (fun a => (line a).toList) (newline (depth + 1)).toList
          ((List.replicate (2 * depth) ' ' ++ closing.toList) ++ rest) as)) := by
  rw [bracketed, if_neg (by simp)]
  simp only [String.toList_append, String.toList_intercalate, List.append_assoc, List.map_cons,
    List.map_map, toList_newline depth, intercalate_append, further_eq_flatMap, List.flatMap_map]
  rfl

/-- **Lines in brackets end by themselves**, since the closing bracket begins no line. -/
theorem bracketed_append_inj {as bs : List α} (hclosing : closing.toList.head? ≠ some '\n')
    (hne : closing.toList ≠ []) (h : ∀ a ∈ as, Delimited (fun a => (line a).toList) sense a)
    (heq : (bracketed opening closing depth (as.map line)).toList ++ rest =
      (bracketed opening closing depth (bs.map line)).toList ++ rest') :
    as.map sense = bs.map sense ∧ rest = rest' := by
  have hnil (rest : List Char) :
      (bracketed opening closing depth (([] : List α).map line)).toList ++ rest =
        opening.toList ++ (closing.toList ++ rest) := by
    simp [bracketed]
  obtain ⟨c, tail, htail⟩ := List.exists_cons_of_ne_nil hne
  have hc : c ≠ '\n' := by
    rintro rfl
    exact hclosing (by rw [htail]; rfl)
  cases as with
  | nil =>
    rw [hnil] at heq
    cases bs with
    | nil =>
      rw [hnil] at heq
      exact ⟨rfl, List.append_cancel_left (List.append_cancel_left heq)⟩
    | cons b bs =>
      rw [toList_bracketed_cons, toList_newline (depth + 1), htail] at heq
      exact absurd (List.head_eq_of_cons_eq (List.append_cancel_left heq)) hc
  | cons a as =>
    rw [toList_bracketed_cons] at heq
    cases bs with
    | nil =>
      rw [hnil, toList_newline (depth + 1), htail] at heq
      exact absurd (List.head_eq_of_cons_eq (List.append_cancel_left heq)).symm hc
    | cons b bs =>
      rw [toList_bracketed_cons] at heq
      obtain ⟨hsense, hbehind⟩ := h a List.mem_cons_self b _ _ (ends_further as) (ends_further bs)
        (List.append_cancel_left (List.append_cancel_left heq))
      obtain ⟨hmap, hrest⟩ := further_inj (fun a ha => h a (List.mem_cons_of_mem _ ha)) hbehind
      exact ⟨by rw [List.map_cons, List.map_cons, hsense, hmap], hrest⟩

end

/-! ### Words -/

def opening? : Json → Option Char
  | string _ => some '"'
  | array _ => some '['
  | object _ => some '\x7b'
  | _ => none

def isWordChar (c : Char) : Bool := c.isAlphanum || ['.', '+', '-'].contains c

/-- **A word**: the text of a value without a closing sign. -/
structure IsWord (word : List Char) : Prop where
  ne_nil : word ≠ []
  all : word.all isWordChar = true

def ofWord (word : List Char) : Json :=
  if word.all Char.isDigit then nat (Decimal.digitsValue word)
  else match Decimal.ofText? word with
    | some x => float x
    | none =>
      if word = "true".toList then bool true
      else if word = "false".toList then bool false
      else null

theorem toList_write_nat (depth n : Nat) :
    (write depth (nat n)).toList = Decimal.digitsOf n := Nat.toList_repr

theorem isWordChar_of_isNumeric {c : Char} (h : Decimal.IsNumeric c) : isWordChar c = true := by
  rcases h with h | h
  · rw [isWordChar, Char.isAlphanum, h, Bool.or_true, Bool.true_or]
  · simp only [List.mem_cons, List.not_mem_nil, or_false] at h
    rcases h with rfl | rfl | rfl | rfl | rfl <;> rfl

theorem isWord_of_isNumeric {word : List Char} (hne : word ≠ [])
    (h : ∀ c ∈ word, Decimal.IsNumeric c) : IsWord word :=
  ⟨hne, List.all_eq_true.mpr fun c hc => isWordChar_of_isNumeric (h c hc)⟩

theorem isWord_write {j : Json} (h : opening? j = none) (depth : Nat) :
    IsWord (write depth j).toList := by
  cases j with
  | string | array | object => cases h
  | null =>
    rw [write]
    exact ⟨by decide, rfl⟩
  | bool value =>
    rw [write]
    cases value <;> exact ⟨by decide, rfl⟩
  | nat n =>
    rw [toList_write_nat]
    exact isWord_of_isNumeric (Decimal.digitsOf_ne_nil n)
      fun c hc => .inl (Decimal.isDigit_digitsOf hc)
  | float x =>
    rw [write]
    cases htext : Decimal.dumpText? x with
    | none => exact ⟨by decide, rfl⟩
    | some text =>
      obtain ⟨hnumeric, c, hc, -⟩ := Decimal.dumpText?_chars htext
      exact isWord_of_isNumeric (List.ne_nil_of_mem hc) hnumeric

/-- **What a word stands for** is what is written. -/
theorem ofWord_write {j : Json} (h : opening? j = none) (depth : Nat) :
    ofWord (write depth j).toList = j.written := by
  cases j with
  | string | array | object => cases h
  | null =>
    rw [write]
    rfl
  | bool value =>
    rw [write]
    cases value <;> rfl
  | nat n =>
    have hall : (Decimal.digitsOf n).all Char.isDigit = true :=
      List.all_eq_true.mpr fun c hc => Decimal.isDigit_digitsOf hc
    rw [toList_write_nat, ofWord, if_pos hall, Decimal.digitsValue_digitsOf]
    rfl
  | float x =>
    rw [write, written]
    cases htext : Decimal.dumpText? x with
    | none =>
      have hx := Decimal.dumpText?_eq_none_iff.mp htext
      rw [hx, if_neg Bool.false_ne_true]
      rfl
    | some text =>
      have hx : x.isFinite = true := by
        by_contra hx
        rw [Decimal.dumpText?_eq_none_iff.mpr (Bool.not_eq_true _ ▸ hx)] at htext
        cases htext
      obtain ⟨-, c, hc, hdigit⟩ := Decimal.dumpText?_chars htext
      have hall : ¬ text.toList.all Char.isDigit = true := by
        intro hall
        rw [List.all_eq_true.mp hall c hc] at hdigit
        cases hdigit
      rw [if_pos hx, Option.getD_some, ofWord, if_neg hall, Decimal.ofText?_dumpText? htext]

variable {word word' rest rest' : List Char}

/-- A word ends in front of what ends a value. -/
theorem IsWord.takeWhile (h : IsWord word) (hrest : Ends rest) :
    (word ++ rest).takeWhile isWordChar = word := by
  rw [List.takeWhile_append_of_pos (List.all_eq_true.mp h.all)]
  cases rest with
  | nil => simp
  | cons c rest =>
    have hc : isWordChar c = false := by
      rcases hrest c rfl with rfl | rfl <;> rfl
    simp [hc]

theorem IsWord.append_inj (h : IsWord word) (h' : IsWord word') (hrest : Ends rest)
    (hrest' : Ends rest') (heq : word ++ rest = word' ++ rest') : word = word' ∧ rest = rest' := by
  have hword : word = word' := by
    rw [← h.takeWhile hrest, heq, h'.takeWhile hrest']
  subst hword
  exact ⟨rfl, List.append_cancel_left heq⟩

/-! ### Values -/

variable {j k : Json} {depth : Nat}

theorem exists_write_eq_cons {c : Char} (h : opening? j = some c) (depth : Nat) :
    ∃ tail, (write depth j).toList = c :: tail := by
  have hbracketed (opening : Char) (closing : String) (lines : List String) :
      ∃ tail, (bracketed (String.singleton opening) closing depth lines).toList =
        opening :: tail := by
    rw [bracketed]
    split
    · exact ⟨closing.toList, by simp⟩
    · exact ⟨_, by simp [String.toList_append]; rfl⟩
  cases j with
  | null | bool | nat | float => cases h
  | string s =>
    cases h
    exact ⟨_, toList_quote s⟩
  | array items =>
    cases h
    exact hbracketed '[' "]" _
  | object members =>
    cases h
    exact hbracketed '\x7b' "\x7d" _

/-- **The kind of a value** shows in its first character. -/
theorem opening?_eq (h : (write depth j).toList ++ rest = (write depth k).toList ++ rest') :
    opening? j = opening? k := by
  have hopening {j : Json} {c : Char} (hj : opening? j = some c) : isWordChar c = false := by
    cases j with
    | null | bool | nat | float => cases hj
    | string | array | object =>
      cases hj
      rfl
  -- A word does not begin as the other values do.
  have hword {j k : Json} {c : Char} {rest rest' : List Char} (hj : opening? j = some c)
      (hk : opening? k = none) :
      (write depth j).toList ++ rest ≠ (write depth k).toList ++ rest' := by
    intro h
    have hisWord := isWord_write hk depth
    obtain ⟨tail, htail⟩ := exists_write_eq_cons hj depth
    obtain ⟨d, tail', htail'⟩ := List.exists_cons_of_ne_nil hisWord.ne_nil
    have hd := List.all_eq_true.mp hisWord.all d (htail' ▸ List.mem_cons_self)
    rw [htail, htail'] at h
    rw [← List.head_eq_of_cons_eq h, hopening hj] at hd
    cases hd
  cases hj : opening? j with
  | none =>
    cases hk : opening? k with
    | none => rfl
    | some d => exact absurd h.symm (hword hk hj)
  | some c =>
    cases hk : opening? k with
    | none => exact absurd h (hword hj hk)
    | some d =>
      obtain ⟨tail, htail⟩ := exists_write_eq_cons hj depth
      obtain ⟨tail', htail'⟩ := exists_write_eq_cons hk depth
      rw [htail, htail'] at h
      exact congrArg some (List.head_eq_of_cons_eq h)

theorem delimited_word (h : opening? j = none) :
    Delimited (fun j => (write depth j).toList) written j := by
  intro k rest rest' hrest hrest' heq
  have hk : opening? k = none := opening?_eq heq ▸ h
  obtain ⟨hword, hbehind⟩ :=
    (isWord_write h depth).append_inj (isWord_write hk depth) hrest hrest' heq
  rw [← ofWord_write h depth, hword, ofWord_write hk depth]
  exact ⟨rfl, hbehind⟩

/-- A member ends by itself if its value does. -/
theorem delimited_member {part : String × Json}
    (h : Delimited (fun j => (write depth j).toList) written part.2) :
    Delimited (fun part => (member depth part).toList)
      (fun part => (part.1, part.2.written)) part := by
  intro part' rest rest' hrest hrest' heq
  simp only [member, String.toList_append, List.append_assoc] at heq
  obtain ⟨hname, hbehind⟩ := quote_append_inj heq
  obtain ⟨hvalue, hrest⟩ := h part'.2 _ _ hrest hrest' (List.append_cancel_left hbehind)
  exact ⟨Prod.ext hname hvalue, hrest⟩

/-- **A value ends by itself.** -/
theorem delimited_write (j : Json) (depth : Nat) :
    Delimited (fun j => (write depth j).toList) written j := by
  induction j using induction generalizing depth with
  | null | bool | nat | float => exact delimited_word rfl
  | string s =>
    intro k rest rest' _ _ heq
    have hopening := opening?_eq heq
    cases k with
    | string t =>
      obtain ⟨rfl, hrest⟩ := quote_append_inj heq
      exact ⟨rfl, hrest⟩
    | _ => cases hopening
  | array items ih =>
    intro k rest rest' _ _ heq
    have hopening := opening?_eq heq
    cases k with
    | array items' =>
      simp only [write, writeItems_eq_map] at heq
      obtain ⟨hitems, hrest⟩ := bracketed_append_inj (by decide) (by decide)
        (fun item hitem => ih item hitem (depth + 1)) heq
      rw [written, written, writtenItems_eq_map, writtenItems_eq_map, hitems]
      exact ⟨rfl, hrest⟩
    | _ => cases hopening
  | object members ih =>
    intro k rest rest' _ _ heq
    have hopening := opening?_eq heq
    cases k with
    | object members' =>
      simp only [write, writeMembers_eq_map] at heq
      obtain ⟨hmembers, hrest⟩ := bracketed_append_inj (by decide) (by decide)
        (fun part hp => delimited_member (ih part hp (depth + 1))) heq
      rw [written, written, writtenMembers_eq_map, writtenMembers_eq_map, hmembers]
      exact ⟨rfl, hrest⟩
    | _ => cases hopening

/-- **Two documents have one text** exactly if they are written as one document. -/
theorem text_eq_iff : j.text = k.text ↔ j.written = k.written := by
  constructor
  · intro h
    have hnil : Ends [] := fun c hc => by cases hc
    refine (delimited_write j 0 k [] [] hnil hnil ?_).1
    rw [List.append_nil, List.append_nil]
    exact congrArg String.toList h
  · intro h
    rw [text, text, ← write_written j, ← write_written k, h]

end TypedImp.Json
