import TypedImp.Command.Arguments

/-!
# The file that the arguments name

A command writes a file only if it has an output, and an output is in the command only if the
arguments name it: behind the option for it, or attached to this option (`Command.parse_output`).
The arguments are read with a draft of the command, so this is said of the draft first.
-/

namespace TypedImp

namespace CommandLine

/-- The arguments name a file to be written: attached to the option for it, or behind it. -/
inductive NamesOutput (path : String) : List String → Prop
  | attached {argument : String} {rest : List String}
      (h : Argument.ofText argument = .flag .output (some path)) :
      NamesOutput path (argument :: rest)
  | next {argument : String} {rest : List String}
      (h : Argument.ofText argument = .flag .output none) :
      NamesOutput path (argument :: path :: rest)
  | later {argument : String} {rest : List String} (h : NamesOutput path rest) :
      NamesOutput path (argument :: rest)

end CommandLine

def Command.output? : Command → Option String
  | build _ options => options.output
  | _ => none

namespace CommandLine

variable {mode : Mode} {d d' : Draft} {command : Command} {path : String}

theorem word?_ofShort (letter : Char) (rest : List Char) :
    (Argument.ofShort letter rest).word? = none := by
  unfold Argument.ofShort
  split <;> rfl

theorem word?_ofLong (text : List Char) : (Argument.ofLong text).word? = none := by
  simp only [Argument.ofLong]
  split <;> rfl

/-- A word is the argument itself. -/
theorem word_ofText {text word : String} (h : (Argument.ofText text).word? = some word) :
    word = text := by
  rw [Argument.ofText] at h
  split at h
  · exact (Option.some.inj h).symm
  · cases h
  · rw [word?_ofLong] at h
    cases h
  · rw [word?_ofShort] at h
    cases h
  · exact (Option.some.inj h).symm

/-- A place that is still free takes a value. -/
theorem once_eq_some {α : Type} {place value : Option α} {found : Option α}
    (h : Draft.once place value = some found) : ∃ x, value = some x ∧ found = some x := by
  cases value with
  | none => simp [Draft.once] at h
  | some x =>
    cases place with
    | none => exact ⟨x, rfl, by simpa [Draft.once] using h.symm⟩
    | some y => simp [Draft.once] at h

theorem fileOf?_eq_some {text path : String} (h : fileOf? text = some path) : text = path := by
  rw [fileOf?] at h
  split at h
  · cases h
  · exact Option.some.inj h

theorem addFile?_output {text : String} (h : d.addFile? text = some d') :
    d'.output = d.output := by
  obtain ⟨input, -, rfl⟩ := Option.map_eq_some_iff.mp h
  rfl

/-- Only the option for it names the file that is written. -/
theorem set?_output {flag : Flag} {value : String} (h : d.set? flag value = some d') :
    d'.output = d.output ∨ flag = .output ∧ d'.output = some value := by
  cases flag with
  | emit | level =>
    obtain ⟨x, -, rfl⟩ := Option.map_eq_some_iff.mp h
    exact .inl rfl
  | output =>
    obtain ⟨found, hfound, rfl⟩ := Option.map_eq_some_iff.mp h
    obtain ⟨x, hx, rfl⟩ := once_eq_some hfound
    exact .inr ⟨rfl, congrArg some (fileOf?_eq_some hx).symm⟩

theorem finish?_output (h : mode.finish? d = some command) (hout : command.output? = some path) :
    d.output = some path := by
  cases hinput : d.input with
  | none =>
    cases mode with
    | unchosen =>
      simp only [Mode.finish?, hinput, Option.some.injEq] at h
      rw [← h] at hout
      cases hout
    | build | check => simp [Mode.finish?, hinput] at h
  | some input =>
    cases mode with
    | unchosen | build =>
      simp only [Mode.finish?, hinput, Option.some.injEq] at h
      rw [← h] at hout
      exact hout
    | check =>
      simp only [Mode.finish?, hinput, Option.some.injEq] at h
      rw [← h] at hout
      cases hout

theorem readFiles?_output {arguments : List String}
    (h : readFiles? mode d arguments = some command) (hout : command.output? = some path) :
    d.output = some path := by
  induction arguments generalizing d with
  | nil => exact finish?_output h hout
  | cons text rest ih =>
    obtain ⟨d', hd, h⟩ := Option.bind_eq_some_iff.mp h
    rw [← addFile?_output hd]
    exact ih h

/-- **The file that is written has been named**, in the arguments that are read or before. -/
theorem read?_output {arguments : List String} (h : read? mode d arguments = some command)
    (hout : command.output? = some path) :
    d.output = some path ∨ NamesOutput path arguments := by
  fun_induction read? mode d arguments with
  | case1 mode d => exact .inl (finish?_output h hout)
  | case2 d argument rest text hword chosen hchosen ih =>
    rcases ih h with hfound | hfound
    · cases hfound
    · exact .inr (.later hfound)
  | case3 mode d argument rest text hword hhelp hmode =>
    rw [if_pos hhelp] at h
    cases h
  | case4 mode d argument rest text hword hhelp hmode ih =>
    rw [if_neg hhelp] at h
    obtain ⟨d', hd, h⟩ := Option.bind_eq_some_iff.mp h
    rcases ih d' h with hfound | hfound
    · exact .inl (addFile?_output hd ▸ hfound)
    · exact .inr (.later hfound)
  | case5 mode d argument rest hescape => exact .inl (readFiles?_output h hout)
  | case6 d argument rest hversion =>
    cases h
    cases hout
  | case7 | case8 | case11 | case12 => cases h
  | case9 mode d argument flag hmode value rest hflag ih =>
    obtain ⟨d', hd, h⟩ := Option.bind_eq_some_iff.mp h
    rcases ih d' h with hfound | hfound
    · rcases set?_output hd with hsame | ⟨rfl, hset⟩
      · exact .inl (hsame ▸ hfound)
      · rw [hset] at hfound
        exact .inr (.attached (Option.some.inj hfound ▸ hflag))
    · exact .inr (.later hfound)
  | case10 mode d argument flag hmode value rest hflag ih =>
    obtain ⟨text, hword, h⟩ := Option.bind_eq_some_iff.mp h
    obtain ⟨d', hd, h⟩ := Option.bind_eq_some_iff.mp h
    rw [word_ofText hword] at hd
    rcases ih d' h with hfound | hfound
    · rcases set?_output hd with hsame | ⟨rfl, hset⟩
      · exact .inl (hsame ▸ hfound)
      · rw [hset] at hfound
        exact .inr (Option.some.inj hfound ▸ .next hflag)
    · exact .inr (.later (.later hfound))

end CommandLine

/-- **The file that a command writes has been named in the arguments.** -/
theorem Command.parse_output {arguments : List String} {command : Command} {path : String}
    (h : Command.parse arguments = some command) (hout : command.output? = some path) :
    CommandLine.NamesOutput path arguments := by
  rcases CommandLine.read?_output h hout with hdraft | hnames
  · cases hdraft
  · exact hnames

/-- The value of the option is attached to it. -/
example : (Command.parse ["build", "c", "-ob", "--emit=json", "-O0"]).bind Command.output? =
    some "b" := by
  decide +kernel

end TypedImp
