import TypedImp.Command.Report
import TypedImp.Proofs.Command.Arguments
import TypedImp.Proofs.Tables.Access

/-!
# The steps of a run

`Run.Meets P x Q R` says of a step that from traces with `P` it comes to an end with `Q`, or fails
with `R`.  This is kept by `>>=`, so what is said of a whole run is said of its steps first, for
each of four things that are wanted of it:

* where it fails nothing has been delivered, and where it does not fail, nothing but what it was to
  deliver (`Command.meets_run`),
* nothing is on standard error as long as the log is not asked for anything (`Host.Quiet`),
* it does not fail for want of a row (`Command.meets_run_message`), since the programs that are
  made of sources are in range,
* a check comes to an end just if there is a program in the file, and so does a build to standard
  output (`Run.Decides`), where documents can be written (`Host.Serializes`).
-/

namespace TypedImp

/-! ### Compiling -/

/-- A simplified program comes of the sources that a program comes of, and a mistake in a source
is the same for both. -/
theorem compile_simplified (source : String) :
    compile source true = (compile source false).map (·.simplify.value) := by
  rw [compile, compile]
  cases parse source with
  | error d => rfl
  | ok tree =>
    cases h : analyze tree with
    | error d => simp only [bind, Except.bind, h, Except.map]
    | ok p => simp only [bind, Except.bind, h, Except.map, pure, Except.pure, if_true,
        Bool.false_eq_true, if_false]

def Files.program (files : Files) (input : String) (simplify : Bool) : Except String Program :=
  match files.read input with
  | .error fault => .error ("Error reading file: " ++ input ++ ": " ++ fault.text)
  | .ok source => (compile source simplify).mapError Diagnostic.text

theorem Files.program_of_read {files : Files} {input source : String}
    (h : files.read input = .ok source) (simplify : Bool) :
    files.program input simplify = (compile source simplify).mapError Diagnostic.text := by
  rw [program, h]

/-- **There is a program in a file, simplified or not**, or the message is the same for both. -/
theorem Files.program_cases (files : Files) (input : String) :
    (∀ simplify, ∃ p, files.program input simplify = .ok p) ∨
      ∃ message, ∀ simplify, files.program input simplify = .error message := by
  cases hread : files.read input with
  | error fault => exact .inr ⟨_, fun simplify => by rw [program, hread]⟩
  | ok source =>
    simp only [program_of_read hread, Bool.forall_bool, compile_simplified]
    cases compile source false with
    | ok p => exact .inl ⟨⟨p, rfl⟩, ⟨_, rfl⟩⟩
    | error d => exact .inr ⟨d.text, rfl, rfl⟩

theorem Files.inRange_of_program {files : Files} {input : String} {simplify : Bool} {p : Program}
    (h : files.program input simplify = .ok p) : p.InRange := by
  cases hread : files.read input with
  | error fault =>
    rw [program, hread] at h
    cases h
  | ok source =>
    rw [program_of_read hread] at h
    cases hcompile : compile source simplify with
    | error d =>
      rw [hcompile] at h
      cases h
    | ok q =>
      rw [hcompile] at h
      cases h
      exact Program.inRange_of_compile hcompile

/-! ### Steps -/

namespace Run

variable {α β : Type} {P P' : Traces → Prop} {x : Run α} {Q : α → Traces → Prop}
  {R : Failure → Traces → Prop}

/-- **From traces with `P` a run ends with `Q`, or it fails with `R`.** -/
def Meets (P : Traces → Prop) (x : Run α) (Q : α → Traces → Prop)
    (R : Failure → Traces → Prop) : Prop :=
  ∀ t, P t → match x t with
    | .ok a t' => Q a t'
    | .error failure t' => R failure t'

theorem meets_pure {a : α} (h : ∀ t, P t → Q a t) : Meets P (pure a) Q R := h

theorem meets_throw {failure : Failure} (h : ∀ t, P t → R failure t) :
    Meets P (throw failure : Run α) Q R := h

theorem meets_modify {change : Traces → Traces} {Q : Unit → Traces → Prop}
    (h : ∀ t, P t → Q () (change t)) : Meets P (modify change) Q R := h

theorem Meets.bind {Q' : β → Traces → Prop} {f : α → Run β} (hx : Meets P x Q R)
    (hf : ∀ a, Meets (Q a) (f a) Q' R) : Meets P (x >>= f) Q' R := by
  intro t ht
  have hx := hx t ht
  show match EStateM.bind x f t with
    | .ok b t' => Q' b t'
    | .error failure t' => R failure t'
  rw [EStateM.bind]
  cases h : x t with
  | ok a t' =>
    rw [h] at hx
    exact hf a t' hx
  | error failure t' =>
    rw [h] at hx
    exact hx

theorem Meets.mono {Q' : α → Traces → Prop} {R' : Failure → Traces → Prop} (hx : Meets P x Q R)
    (hQ : ∀ a t, Q a t → Q' a t) (hR : ∀ failure t, R failure t → R' failure t) :
    Meets P x Q' R' := by
  intro t ht
  have hx := hx t ht
  cases h : x t with
  | ok a t' =>
    rw [h] at hx
    exact hQ a t' hx
  | error failure t' =>
    rw [h] at hx
    exact hR failure t' hx

theorem Meets.and {Q' : α → Traces → Prop} {R' : Failure → Traces → Prop} (hx : Meets P x Q R)
    (hx' : Meets P' x Q' R') : Meets (fun t => P t ∧ P' t) x (fun a t => Q a t ∧ Q' a t)
      fun failure t => R failure t ∧ R' failure t := by
  intro t ht
  have hx := hx t ht.1
  have hx' := hx' t ht.2
  cases h : x t with
  | ok a t' =>
    rw [h] at hx hx'
    exact ⟨hx, hx'⟩
  | error failure t' =>
    rw [h] at hx hx'
    exact ⟨hx, hx'⟩

/-- **A step keeps what there was**, whether it comes to an end or fails. -/
def Keeps (P : Traces → Prop) (x : Run α) : Prop := Meets P x (fun _ => P) fun _ => P

theorem keeps_pure (a : α) : Keeps P (pure a) := meets_pure fun _ ht => ht

theorem keeps_fail (message : String) : Keeps P (fail message : Run α) :=
  meets_throw fun _ ht => ht

theorem keeps_look (l : Lookup α) : Keeps P (look l) := by
  cases l with
  | ok a => exact keeps_pure a
  | error missing => exact meets_throw fun _ ht => ht

theorem Keeps.bind {f : α → Run β} (hx : Keeps P x) (hf : ∀ a, Keeps P (f a)) :
    Keeps P (x >>= f) := Meets.bind hx hf

end Run

namespace Host

open Run

variable {host : Host} {P : Traces → Prop}

/-! ### Nothing is delivered before the end -/

/-- The log keeps what does not speak of standard error. -/
theorem keeps_note (h : ∀ t stderr, P t → P { t with stderr }) (notice : Notice) :
    Keeps P (host.note notice) := meets_modify fun t ht => h t _ ht

theorem keeps_source (input : String) : Keeps P (host.source input) := by
  rw [source]
  cases host.read input with
  | ok text => exact keeps_pure text
  | error fault => exact keeps_fail _

theorem keeps_compileFile (hnote : ∀ notice, Keeps P (host.note notice)) (input : String)
    (simplify : Bool) : Keeps P (host.compileFile input simplify) := by
  refine (keeps_source input).bind fun source => ?_
  refine (hnote _).bind fun _ => (hnote _).bind fun _ => ?_
  cases compile source simplify with
  | ok p => exact keeps_pure p
  | error d => exact keeps_fail _

theorem keeps_textOf (p : Program) (emit : Emit) : Keeps P (host.textOf p emit) := by
  cases emit with
  | listing => exact keeps_look _
  | json =>
    rw [textOf]
    cases host.serialize p.dump with
    | ok text => exact keeps_pure _
    | error reason => exact keeps_fail _

end Host

def Traces.Clean (t : Traces) : Prop := t.stdout = "" ∧ t.written = []

def Traces.WrittenTo (output : Option String) (t : Traces) : Prop :=
  ∀ path text, (path, text) ∈ t.written → output = some path

namespace Host

open Run Traces

variable {host : Host}

theorem keeps_note_clean (notice : Notice) : Keeps Clean (host.note notice) :=
  keeps_note (fun _ _ ht => ht) notice

/-- **A text is delivered, or nothing is**: writing fails before anything is written, and nothing
that could fail comes behind it. -/
theorem meets_deliver (output : Option String) (text : String) :
    Meets Clean (host.deliver output text) (fun _ => WrittenTo output) fun _ => Clean := by
  cases output with
  | none =>
    refine meets_modify fun t ht path text hmem => ?_
    rw [show t.written = [] from ht.2] at hmem
    cases hmem
  | some path =>
    refine Meets.bind (Q := fun _ => WrittenTo (some path)) ?_ fun _ => meets_modify fun t ht => ht
    rw [write]
    cases host.hindrance? path with
    | some fault => exact meets_throw fun _ ht => ht
    | none =>
      refine meets_modify fun t ht other text' hmem => ?_
      rw [show t.written ++ [(path, text)] = [(path, text)] by rw [ht.2, List.nil_append]] at hmem
      exact congrArg some (Prod.mk.inj (List.mem_singleton.mp hmem)).1.symm

end Host

namespace Command

open Run Traces

/-- **Where a run fails nothing has been delivered**, and where it does not, no file but the one
that the command names has been written. -/
theorem meets_run (host : Host) (command : Command) :
    Meets Clean (command.run host) (fun _ => WrittenTo command.output?) fun _ => Clean := by
  have hprint (text : String) : Meets Clean (print text) (fun _ => WrittenTo none) fun _ => Clean :=
    host.meets_deliver none text
  have hcompile := fun input simplify =>
    host.keeps_compileFile Host.keeps_note_clean input simplify
  cases command with
  | version => exact hprint _
  | nothing => exact meets_throw fun _ ht => ht
  | build input options =>
    refine Meets.bind (hcompile input options.simplify) fun p => ?_
    refine Meets.bind (Host.keeps_textOf p options.emit) fun text => ?_
    exact host.meets_deliver options.output text
  | check input => exact Meets.bind (hcompile input false) fun p => hprint _

end Command

/-! ### Nothing is said on standard error -/

/-- **The log is not asked for anything.** -/
def Host.Quiet (host : Host) : Prop := ∀ notice, host.log notice = ""

def Traces.Silent (t : Traces) : Prop := t.stderr = ""

namespace Host

open Run Traces

variable {host : Host}

theorem Quiet.keeps_note (h : host.Quiet) (notice : Notice) : Keeps Silent (host.note notice) := by
  refine meets_modify fun t ht => ?_
  show t.stderr ++ host.log notice = ""
  rw [show t.stderr = "" from ht, h notice]
  rfl

theorem Quiet.keeps_deliver (h : host.Quiet) (output : Option String) (text : String) :
    Keeps Silent (host.deliver output text) := by
  cases output with
  | none => exact meets_modify fun _ ht => ht
  | some path =>
    refine Keeps.bind ?_ fun _ => h.keeps_note _
    rw [write]
    cases host.hindrance? path with
    | none => exact meets_modify fun _ ht => ht
    | some fault => exact keeps_fail _

/-- **A run says nothing on standard error but why it fails.** -/
theorem Quiet.keeps_run (h : host.Quiet) (command : Command) :
    Keeps Silent (command.run host) := by
  have hcompile := fun input simplify => keeps_compileFile h.keeps_note input simplify
  cases command with
  | version => exact meets_modify fun _ ht => ht
  | nothing => exact keeps_fail _
  | build input options =>
    refine (hcompile input options.simplify).bind fun p => ?_
    refine (keeps_textOf p options.emit).bind fun text => ?_
    exact h.keeps_deliver options.output text
  | check input => exact (hcompile input false).bind fun p => meets_modify fun _ ht => ht

end Host

/-! ### What compiling and printing come to -/

/-- **All documents can be written.** -/
def Host.Serializes (host : Host) : Prop := ∀ document, ∃ text, host.serialize document = .ok text

namespace Host

open Run

variable {host : Host}

/-- A file is compiled to the program in it, or the message is the one why there is none. -/
theorem meets_compileFile (host : Host) (input : String) (simplify : Bool) :
    Meets (fun _ => True) (host.compileFile input simplify)
      (fun p _ => host.program input simplify = .ok p)
      fun failure _ => ∃ message, failure = .message message ∧
        host.program input simplify = .error message := by
  refine Meets.bind (Q := fun text _ => host.read input = .ok text) ?_ fun text => ?_
  · rw [source]
    cases hread : host.read input with
    | ok text => exact meets_pure fun _ _ => rfl
    | error fault =>
      refine meets_throw fun _ _ => ⟨_, rfl, ?_⟩
      rw [Files.program, hread]
  · -- The log leaves all of this as it is.
    let Q (_ : Unit) (_ : Traces) : Prop := host.read input = .ok text
    refine Meets.bind (Q := Q) (meets_modify fun _ hread => hread) fun _ => ?_
    refine Meets.bind (Q := Q) (meets_modify fun _ hread => hread) fun _ => ?_
    cases hcompile : compile text simplify with
    | ok p =>
      refine meets_pure fun _ hread => ?_
      rw [Files.program_of_read hread, hcompile]
      rfl
    | error d =>
      refine meets_throw fun _ hread => ⟨_, rfl, ?_⟩
      rw [Files.program_of_read hread, hcompile]
      rfl

/-- **A program in range has a text**: its listing finds every row, and only that documents cannot
be written is a reason to fail. -/
theorem meets_textOf (host : Host) {p : Program} (hp : p.InRange) (emit : Emit) :
    Meets (fun _ => True) (host.textOf p emit) (fun _ _ => True)
      fun failure _ => (∃ message, failure = .message message) ∧ ¬ host.Serializes := by
  cases emit with
  | listing =>
    rw [textOf, hp.print_eq]
    exact meets_pure fun _ _ => trivial
  | json =>
    rw [textOf]
    cases htext : host.serialize p.dump with
    | ok text => exact meets_pure fun _ _ => trivial
    | error reason =>
      refine meets_throw fun _ _ => ⟨⟨_, rfl⟩, fun h => ?_⟩
      obtain ⟨text, hsome⟩ := h p.dump
      rw [htext] at hsome
      cases hsome

theorem meets_deliver_message (host : Host) (output : Option String) (text : String) :
    Meets (fun _ => True) (host.deliver output text) (fun _ _ => True)
      fun failure _ => ∃ message, failure = .message message := by
  cases output with
  | none => exact meets_modify fun _ _ => trivial
  | some path =>
    refine Meets.bind (Q := fun _ _ => True) ?_ fun _ => meets_modify fun _ _ => trivial
    rw [write]
    cases host.hindrance? path with
    | none => exact meets_modify fun _ _ => trivial
    | some fault => exact meets_throw fun _ _ => ⟨_, rfl⟩

end Host

/-- **A run comes to an end just if there is a program**, and if there is none, it says why. -/
def Run.Decides (x : Run Unit) (program : Except String Program) : Prop :=
  Meets (fun _ => True) x (fun _ _ => ∃ p, program = .ok p)
    fun failure _ => ∃ message, failure = .message message ∧ program = .error message

namespace Command

open Run

theorem decides_check (host : Host) (input : String) :
    ((check input).run host).Decides (host.program input false) := by
  refine (host.meets_compileFile input false).bind fun p => ?_
  exact meets_modify fun _ hp => ⟨p, hp⟩

/-- **No run fails for want of a row.** -/
theorem meets_run_message (host : Host) (command : Command) :
    Meets (fun _ => True) (command.run host) (fun _ _ => True)
      fun failure _ => ∃ message, failure = .message message := by
  have hcompile (input : String) (simplify : Bool) : Meets (fun _ => True)
      (host.compileFile input simplify) (fun p _ => p.InRange)
      fun failure _ => ∃ message, failure = .message message := by
    refine (host.meets_compileFile input simplify).mono (fun p _ hp => ?_) ?_
    · exact Files.inRange_of_program hp
    · exact fun failure _ ⟨message, hmessage, _⟩ => ⟨message, hmessage⟩
  cases command with
  | version => exact meets_modify fun _ _ => trivial
  | nothing => exact meets_throw fun _ _ => ⟨_, rfl⟩
  | build input options =>
    refine (hcompile input options.simplify).bind fun p t hp => ?_
    have htext := (host.meets_textOf hp options.emit).mono (fun _ _ h => h) fun _ _ h => h.1
    exact htext.bind (fun text => host.meets_deliver_message options.output text) t trivial
  | check input => exact (hcompile input false).bind fun p => meets_modify fun _ _ => trivial

/-- **Building does not fail behind compiling**, if it is to standard output. -/
theorem decides_build {host : Host} (h : host.Serializes) (input : String) (emit : Emit)
    (simplify : Bool) :
    ((build input ⟨none, emit, simplify⟩).run host).Decides (host.program input simplify) := by
  refine (host.meets_compileFile input simplify).bind fun p t hp => ?_
  have htext := host.meets_textOf (Files.inRange_of_program hp) emit
  refine (htext.mono (fun _ _ h => h) fun _ _ hfailed => absurd h hfailed.2).bind ?_ t trivial
  exact fun text => meets_modify fun _ _ => ⟨p, hp⟩

end Command

end TypedImp
