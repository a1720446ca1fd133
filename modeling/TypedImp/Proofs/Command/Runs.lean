import TypedImp.Proofs.Command.Steps

/-!
# A run does all or nothing

A run of a command reads a file, makes a text of it and puts the text on standard output or into
the file that is named for it.  Delivering comes last, so a run that fails leaves nothing behind but
a message; and a run that succeeds says nothing on standard error unless the log is asked for
something.

* **`Command.all_or_nothing`**: this for all commands and all hosts, and that `check` writes no
  file and accepts just the files that can be built, with the same message for all others.  Which
  file the arguments name is `Command.parse_output`.
* `Command.report_of_attempt`: a run asks whether it may write only when all else is done, so it
  can find out by trying.  Files that a command neither reads nor writes make no difference to it
  (`Command.report_congr`).
-/

namespace TypedImp

/-! ### Endings -/

def Files.after (files : Files) : List (String × String) → Files
  | [] => files
  | (path, text) :: written =>
    { files with
      read := fun other => if other = path then .ok text else files.read other }.after written

/-- A file that is not written stays as it was. -/
theorem Files.after_read {written : List (String × String)} {path : String} (files : Files)
    (h : ∀ text, (path, text) ∉ written) : (files.after written).read path = files.read path := by
  induction written generalizing files with
  | nil => rfl
  | cons first written ih =>
    obtain ⟨other, text⟩ := first
    have hne : path ≠ other := fun heq => h text (heq ▸ List.mem_cons_self)
    rw [after, ih _ fun text' hmem => h text' (List.mem_cons_of_mem _ hmem)]
    exact if_neg hne

theorem Failure.exit_ne_zero (failure : Failure) : failure.exit ≠ 0 := by
  cases failure with
  | message | noRow => exact Nat.succ_ne_zero _

namespace Run

variable {x : Run Unit} {P : Traces → Prop} {Q : Unit → Traces → Prop}
  {R : Failure → Traces → Prop}

/-- **What holds of a run holds of its ending.** -/
theorem Meets.ending (h : Meets P x Q R) (hstart : P {}) :
    (x.ending.exit = 0 ∧ Q () x.ending.toTraces) ∨
      ∃ failure t, R failure t ∧
        x.ending = ⟨{ t with stderr := t.stderr ++ failure.text ++ "\n" }, failure.exit⟩ := by
  have h := h {} hstart
  rw [Run.ending]
  cases hx : x {} with
  | ok a t =>
    rw [hx] at h
    exact .inl ⟨rfl, h⟩
  | error failure t =>
    rw [hx] at h
    exact .inr ⟨failure, t, h, rfl⟩

end Run

namespace Command

open Traces

/-- **A run comes to an end, or it fails** with nothing delivered. -/
theorem ending_cases (host : Host) (command : Command) :
    ((command.ending host).exit = 0 ∧
      (command.ending host).toTraces.WrittenTo command.output?) ∨
    ((command.ending host).exit = 1 ∧ (command.ending host).toTraces.Clean) := by
  have hboth := (command.meets_run host).and (command.meets_run_message host)
  rcases hboth.ending ⟨⟨rfl, rfl⟩, trivial⟩ with
    ⟨hexit, hwritten, _⟩ | ⟨failure, t, hfailed, hending⟩
  · exact .inl ⟨hexit, hwritten⟩
  · obtain ⟨hclean, message, rfl⟩ := hfailed
    rw [ending, hending]
    exact .inr ⟨rfl, hclean⟩

theorem stderr_of_exit_eq_zero {host : Host} (hquiet : host.Quiet) {command : Command}
    (hexit : (command.ending host).exit = 0) : (command.ending host).stderr = "" := by
  rcases (hquiet.keeps_run command).ending rfl with ⟨_, hsilent⟩ | ⟨failure, t, _, hending⟩
  · exact hsilent
  · rw [ending, hending] at hexit
    exact absurd hexit failure.exit_ne_zero

theorem exit_eq_zero_iff {host : Host} {command : Command} {program : Except String Program}
    (h : (command.run host).Decides program) :
    (command.ending host).exit = 0 ↔ ∃ p, program = .ok p := by
  rcases h.ending trivial with ⟨hexit, hp⟩ | ⟨failure, t, ⟨message, _, hmessage⟩, hending⟩
  · exact iff_of_true hexit hp
  · refine iff_of_false ?_ ?_
    · rw [ending, hending]
      exact failure.exit_ne_zero
    · rw [hmessage]
      nofun

theorem stderr_of_error {host : Host} (hquiet : host.Quiet) {command : Command}
    {program : Except String Program} {message : String}
    (h : (command.run host).Decides program) (hprogram : program = .error message) :
    (command.ending host).stderr = message ++ "\n" := by
  have hboth := h.and (hquiet.keeps_run command)
  rcases hboth.ending ⟨trivial, rfl⟩ with ⟨_, ⟨p, hp⟩, _⟩ | ⟨failure, t, ⟨hwhy, hsilent⟩, hending⟩
  · rw [hprogram] at hp
    cases hp
  · obtain ⟨other, rfl, hother⟩ := hwhy
    rw [hprogram] at hother
    cases hother
    rw [ending, hending]
    show t.stderr ++ message ++ "\n" = message ++ "\n"
    rw [show t.stderr = "" from hsilent, String.empty_append]

/-- **To check a file is to build it** and to print another text. -/
theorem check_cases {host : Host} (h : host.Serializes) (input : String) (emit : Emit)
    (simplify : Bool) :
    let checked := (check input).ending host
    let built := (build input ⟨none, emit, simplify⟩).ending host
    (checked.exit = 0 ∧ built.exit = 0) ∨
      (checked.exit ≠ 0 ∧ built.exit ≠ 0 ∧ (host.Quiet → checked.stderr = built.stderr)) := by
  have hcheck := decides_check host input
  have hbuild := decides_build h input emit simplify
  rcases host.program_cases input with hsome | ⟨message, hnone⟩
  · exact .inl ⟨(exit_eq_zero_iff hcheck).mpr (hsome false),
      (exit_eq_zero_iff hbuild).mpr (hsome simplify)⟩
  · have hfails (s : Bool) : ¬ ∃ p, host.program input s = .ok p := by
      rw [hnone s]
      nofun
    refine .inr ⟨mt (exit_eq_zero_iff hcheck).mp (hfails false),
      mt (exit_eq_zero_iff hbuild).mp (hfails simplify), fun hquiet => ?_⟩
    rw [stderr_of_error hquiet hcheck (hnone false),
      stderr_of_error hquiet hbuild (hnone simplify)]

/-- **All or nothing.**  Whatever surrounds a run of any command: if it ends with another exit
status than zero, this is one, and the run has printed nothing on standard output and has written
and changed no file.  If it ends with zero, it has printed nothing on standard error, as long as the
log is not asked for anything; and if it has written or changed a file, that is the one which the
command names for it.

A check never writes a file.  As long as documents can be written, it accepts a file just if the
file can be built, simplified or not and in either form; and if it does not, it prints the message
that building prints. -/
theorem all_or_nothing (host : Host) :
    (∀ command : Command,
      ((command.ending host).exit ≠ 0 → (command.ending host).exit = 1 ∧
        (command.ending host).stdout = "" ∧ (command.ending host).written = [] ∧
        host.after (command.ending host).written = host.toFiles) ∧
      ((command.ending host).exit = 0 → (host.Quiet → (command.ending host).stderr = "") ∧
        ∀ path, (∃ text, (path, text) ∈ (command.ending host).written) ∨
            (host.after (command.ending host).written).read path ≠ host.read path →
          command.output? = some path)) ∧
    (∀ input, ((check input).ending host).written = []) ∧
    (host.Serializes → ∀ (input : String) (emit : Emit) (simplify : Bool),
      (((check input).ending host).exit = 0 ↔
        ((build input ⟨none, emit, simplify⟩).ending host).exit = 0) ∧
      (host.Quiet → ((check input).ending host).exit ≠ 0 →
        ((build input ⟨none, emit, simplify⟩).ending host).exit ≠ 0 →
        ((check input).ending host).stderr =
          ((build input ⟨none, emit, simplify⟩).ending host).stderr)) := by
  refine ⟨fun command => ⟨fun hexit => ?_, fun hexit => ⟨fun hquiet => ?_, fun path hpath => ?_⟩⟩,
    fun input => ?_, fun h input emit simplify => ?_⟩
  · rcases command.ending_cases host with ⟨hzero, _⟩ | ⟨hone, hstdout, hwritten⟩
    · exact absurd hzero hexit
    · exact ⟨hone, hstdout, hwritten, by rw [hwritten, Files.after]⟩
  · exact stderr_of_exit_eq_zero hquiet hexit
  · rcases command.ending_cases host with ⟨_, hwritten⟩ | ⟨hone, _⟩
    · rcases hpath with ⟨text, hmem⟩ | hchanged
      · exact hwritten path text hmem
      · by_contra hother
        exact hchanged (Files.after_read _ fun text hmem => hother (hwritten path text hmem))
    · rw [hone] at hexit
      cases hexit
  · rcases (check input).ending_cases host with ⟨_, hwritten⟩ | ⟨_, _, hwritten⟩
    · exact List.eq_nil_iff_forall_not_mem.mpr fun written hmem => nomatch hwritten _ _ hmem
    · exact hwritten
  · rcases check_cases h input emit simplify with ⟨hc, hb⟩ | ⟨hc, hb, hstderr⟩
    · exact ⟨iff_of_true hc hb, fun _ hne => absurd hc hne⟩
    · exact ⟨iff_of_false hc hb, fun hquiet _ _ => hstderr hquiet⟩

def sampleFiles : Files where
  read path := if path = "a" then .ok voidVariableSource else .error .missing
  hindrance? _ := none

theorem serializes_ofFiles (files : Files) : (Host.ofFiles files).Serializes :=
  fun document => ⟨document.text, rfl⟩

theorem quiet_ofFiles (files : Files) : (Host.ofFiles files).Quiet := fun _ => rfl

/-- One file can be checked, so it can be built as well.  Another one is not there, so nothing is
written for it, and checking says what building says. -/
theorem all_or_nothing_sample :
    let host := Host.ofFiles sampleFiles
    ((build "a" ⟨none, .json, true⟩).ending host).exit = 0 ∧
    ((build "a" ⟨none, .json, true⟩).ending host).stderr = "" ∧
    ((build "c" ⟨none, .json, true⟩).ending host).stdout = "" ∧
    ((check "c").ending host).stderr =
      ((build "c" ⟨none, .json, true⟩).ending host).stderr := by
  intro host
  obtain ⟨hruns, -, hchecks⟩ := all_or_nothing host
  have hread : host.read "a" = .ok voidVariableSource := rfl
  have hmissing : host.read "c" = .error .missing := rfl
  have hprogram : host.program "a" false = .ok voidVariableProgram := by
    rw [Files.program_of_read hread, compile_voidVariableSource]
    rfl
  have hnone : ¬ ∃ p, host.program "c" false = .ok p := by
    rw [Files.program, hmissing]
    rintro ⟨p, hp⟩
    cases hp
  have hchecked : ((check "a").ending host).exit = 0 :=
    (exit_eq_zero_iff (decides_check host "a")).mpr ⟨_, hprogram⟩
  have hrefused : ((check "c").ending host).exit ≠ 0 :=
    mt (exit_eq_zero_iff (decides_check host "c")).mp hnone
  have hquiet := quiet_ofFiles sampleFiles
  obtain ⟨hsame, -⟩ := hchecks (serializes_ofFiles sampleFiles) "a" .json true
  obtain ⟨hother, hstderr⟩ := hchecks (serializes_ofFiles sampleFiles) "c" .json true
  have hbuilt := hsame.mp hchecked
  have hfailed := mt hother.mpr hrefused
  exact ⟨hbuilt, ((hruns _).2 hbuilt).1 hquiet, ((hruns _).1 hfailed).2.1,
    hstderr hquiet hrefused hfailed⟩

/-! ### Finding out by trying -/

def content (files : Files) (command : Command) : Except FileFault String :=
  match command.input? with
  | some path => files.read path
  | none => .error .missing

/-- A report has no file but the one that the command names. -/
theorem output?_of_report {files : Files} {command : Command} {path text : String}
    (h : (command.report files).written = some (path, text)) : command.output? = some path := by
  have hmem : (path, text) ∈ (command.ending (.ofFiles files)).written :=
    List.mem_of_getLast? h
  rcases command.ending_cases (.ofFiles files) with ⟨_, hwritten⟩ | ⟨_, _, hwritten⟩
  · exact hwritten path text hmem
  · rw [hwritten] at hmem
    cases hmem

variable {files files' : Files} {input : String}

/-- Only the file that is read makes a difference to what is made of it. -/
theorem compileFile_congr (h : files.read input = files'.read input) (simplify : Bool) :
    (Host.ofFiles files).compileFile input simplify =
      (Host.ofFiles files').compileFile input simplify := by
  have hsource : (Host.ofFiles files).source input = (Host.ofFiles files').source input := by
    rw [Host.source, Host.source]
    rw [show (Host.ofFiles files).read input = (Host.ofFiles files').read input from h]
  rw [Host.compileFile, Host.compileFile, hsource]
  rfl

/-- Only what hinders writing to the path that is named makes a difference. -/
theorem deliver_congr {output : Option String}
    (h : ∀ path ∈ output, files.hindrance? path = files'.hindrance? path) :
    (Host.ofFiles files).deliver output = (Host.ofFiles files').deliver output := by
  funext text
  cases output with
  | none => rfl
  | some path =>
    have hpath : (Host.ofFiles files).hindrance? path = (Host.ofFiles files').hindrance? path :=
      h path rfl
    rw [Host.deliver, Host.deliver, Host.write, Host.write, hpath]
    rfl

/-- **A report depends on one file that is read, and on what hinders writing to one.** -/
theorem report_congr {command : Command}
    (hread : ∀ input ∈ command.input?, files.read input = files'.read input)
    (hwrite : ∀ path ∈ command.output?, files.hindrance? path = files'.hindrance? path) :
    command.report files = command.report files' := by
  suffices hrun : command.run (.ofFiles files) = command.run (.ofFiles files') by
    rw [report, report, ending, ending, hrun]
  cases command with
  | version | nothing => rfl
  | build input options =>
    have hdeliver : (Host.ofFiles files).deliver options.output =
        (Host.ofFiles files').deliver options.output := deliver_congr hwrite
    rw [run, run, Host.build, Host.build, compileFile_congr (hread input rfl), hdeliver]
    rfl
  | check input => rw [run, run, Host.check, Host.check, compileFile_congr (hread input rfl)]

/-- Where nothing hinders writing and nothing is written, a run has failed before. -/
theorem ending_of_not_written {host : Host} {x : Run String} {path : String}
    (hfree : host.hindrance? path = none)
    (h : (x >>= host.deliver (some path)).ending.written = []) (host' : Host) :
    (x >>= host'.deliver (some path)).ending = (x >>= host.deliver (some path)).ending := by
  cases hx : x {} with
  | error failure t =>
    have hfails (host : Host) : (x >>= host.deliver (some path)) {} = .error failure t := by
      simp only [bind, EStateM.bind, hx]
    rw [Run.ending, Run.ending, hfails, hfails]
  | ok text t =>
    have hends : (x >>= host.deliver (some path)) {} = host.deliver (some path) text t := by
      simp only [bind, EStateM.bind, hx]
    rw [Run.ending, hends, Host.deliver, Host.write, hfree] at h
    have hwritten : t.written ++ [(path, text)] = [] := h
    exact absurd hwritten (List.append_ne_nil_of_right_ne_nil _ (List.cons_ne_nil _ _))

/-- So the report is the same, whatever hinders writing. -/
theorem report_of_not_written {command : Command}
    (hread : ∀ input ∈ command.input?, files.read input = files'.read input)
    (hfree : ∀ path ∈ command.output?, files.hindrance? path = none)
    (h : (command.report files).written = none) :
    command.report files' = command.report files := by
  cases houtput : command.output? with
  | none =>
    refine (report_congr hread fun path hpath => ?_).symm
    rw [houtput] at hpath
    cases hpath
  | some path =>
    cases command with
    | version | nothing | check => cases houtput
    | build input options =>
      obtain ⟨output, emit, simplify⟩ := options
      obtain rfl : output = some path := houtput
      -- A text is made of the file in both runs, and delivered then.
      have hbuild (files : Files) : (Host.ofFiles files).build input ⟨some path, emit, simplify⟩ =
          ((Host.ofFiles files).compileFile input simplify >>=
            fun p => (Host.ofFiles files).textOf p emit) >>=
              (Host.ofFiles files).deliver (some path) := (bind_assoc ..).symm
      rw [report, ending, run, hbuild] at h ⊢
      rw [report, ending, run, hbuild, ← compileFile_congr (hread input rfl)]
      have hnothing := List.getLast?_eq_none_iff.mp h
      exact congrArg Ending.report (ending_of_not_written (hfree path rfl) hnothing _)

/-- **A run needs to read one file and to try to write one.**  It writes only when all else is
done: the report on files that can all be written has the text, and if the one file cannot be
written after all, the report on what hinders it is the right one. -/
theorem report_of_attempt (files : Files) (command : Command) :
    let attempt := command.report ⟨fun _ => command.content files, fun _ => none⟩
    command.report files = match attempt.written with
      | none => attempt
      | some (path, _) => match files.hindrance? path with
        | none => attempt
        | some fault => command.report ⟨fun _ => command.content files, fun _ => some fault⟩ := by
  intro attempt
  have hread : ∀ input ∈ command.input?, command.content files = files.read input := by
    intro input hinput
    rw [content, show command.input? = some input from hinput]
  cases hwritten : attempt.written with
  | none => exact report_of_not_written hread (fun _ _ => rfl) hwritten
  | some written =>
    obtain ⟨path, text⟩ := written
    have houtput : command.output? = some path := output?_of_report hwritten
    -- Only what hinders writing to this path matters now.
    have hsame (hindrance : Option FileFault) (h : files.hindrance? path = hindrance) :
        command.report files =
          command.report ⟨fun _ => command.content files, fun _ => hindrance⟩ := by
      refine report_congr (fun input hinput => (hread input hinput).symm) fun other hother => ?_
      obtain rfl : path = other := Option.some.inj (houtput.symm.trans hother)
      exact h
    cases hfault : files.hindrance? path with
    | none => simpa only [hfault] using hsame none hfault
    | some fault => simpa only [hfault] using hsame (some fault) hfault

end Command

end TypedImp
