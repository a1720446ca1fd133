import TypedImp.Proofs.Scoping.Gains

/-!
# The history of a scope

A scope keeps its frames on a stack, and a frame that is left is forgotten with all that it binds.
A `History` has the same answers without a stack of bindings, from a record that forgets nothing.
Its frames have numbers, in the order in which they were opened.  All names that were ever given
stand in one list, each with the number of its frame, and one table says what each frame does not
take over from the one around it.  Only the numbers of the frames that are still open say what
counts of this: a name means what the innermost of them that was given it was given last, and
whether a loop is around and which function's body this is says the innermost one that was told.

`History.Tells` is the relation between both.  Each action keeps it (`History.Tells.act`), so it
holds wherever the same actions lead from the start (`History.Tells.run`).

A frame is left where it was opened.  `Action.Balanced` says of actions that they leave just the
frames that they open, and then they leave all frames around them as they were
(`Scope.exists_run_of_balanced`); and a frame that is left was opened by the last action behind
which the actions are balanced (`Scope.exists_opening`).

* **`scope_history`**: from the start on, all answers of a scope are those of its history, and
  where a frame is left the scope is the one in which it was opened.
-/

namespace TypedImp

/-! ### What is done to a scope -/

namespace Scope

/-- **What is done to a scope**: a name is given, or a frame is opened or left. -/
inductive Action where
  | bind (name : String) (binding : Binding)
  | enter (o : Overrides)
  | enterBlock
  | enterLoop
  | enterFunction (id : FunctionId)
  | leave
deriving DecidableEq, Repr

def act (s : Scope) : Action → Option Scope
  | .bind name binding => some (s.bind name binding)
  | .enter o => some (s.enter o)
  | .enterBlock => some s.enterBlock
  | .enterLoop => some s.enterLoop
  | .enterFunction id => some (s.enterFunction id)
  | .leave => s.leave?

def run (s : Scope) (actions : List Action) : Option Scope := actions.foldlM act s

namespace Action

def opens : Action → Bool
  | enter _ | enterBlock | enterLoop | enterFunction _ => true
  | bind .. | leave => false

/-- **Actions that leave just the frames that they open.** -/
inductive Balanced : List Action → Prop
  | nil : Balanced []
  | bind (name : String) (binding : Binding) {others : List Action} (h : Balanced others) :
    Balanced (.bind name binding :: others)
  | frame {opening : Action} (ho : opening.opens = true) {inner others : List Action}
    (hinner : Balanced inner) (hothers : Balanced others) :
    Balanced (opening :: (inner ++ .leave :: others))

theorem Balanced.append {actions others : List Action} (h : Balanced actions)
    (hothers : Balanced others) : Balanced (actions ++ others) := by
  induction h with
  | nil => exact hothers
  | bind name binding _ ih => exact .bind name binding ih
  | frame ho hinner _ _ ih =>
    rw [List.cons_append, List.append_assoc, List.cons_append]
    exact .frame ho hinner ih

end Action

end Scope

/-! ### Histories -/

/-- A name that a frame was given, and what it stands for there. -/
structure Addition where
  frame : Nat
  name : String
  binding : Binding
deriving DecidableEq, Repr

/-- **What has happened to a scope.** -/
structure History where
  /-- All names that were ever given, in their order. -/
  additions : List Addition
  /-- What each frame does not take over from the one around it, by its number. -/
  overrides : List Overrides
  /-- The number of the current frame. -/
  current : Nat
  /-- The numbers of the frames around it, the innermost first. -/
  outer : List Nat
deriving DecidableEq, Repr

namespace History

variable {α : Type}

/-- The numbers of the frames that are open, the innermost first. -/
def live (h : History) : List Nat := h.current :: h.outer

/-- What a frame was last given under a name. -/
def latest? (h : History) (frame : Nat) (name : String) : Option Binding :=
  (h.additions.filter fun a => a.frame == frame && a.name == name).getLast?.map Addition.binding

/-- What the innermost of some frames that was told anything of a setting was told. -/
def setting? (h : History) (setting : Overrides → Option α) (frames : List Nat) : Option α :=
  frames.findSome? fun frame => h.overrides[frame]?.bind setting

def find? (h : History) (name : String) : Option Binding := h.live.findSome? (h.latest? · name)

def declares (h : History) (name : String) : Bool :=
  h.additions.any fun a => a.frame == h.current && a.name == name

/-- Whether a loop is around.  There is none around the outermost frame. -/
def inLoop (h : History) : Bool := (h.setting? Overrides.inLoop h.live).getD false

def function (h : History) : Option FunctionId := (h.setting? Overrides.function h.live).getD none

def bind (h : History) (name : String) (binding : Binding) : History :=
  { h with additions := h.additions ++ [⟨h.current, name, binding⟩] }

/-- A frame is opened; its number is that of the frames there were so far. -/
def enter (h : History) (o : Overrides) : History :=
  ⟨h.additions, h.overrides ++ [o], h.overrides.length, h.live⟩

/-- The current frame is left, unless it is the outermost one. -/
def leave? (h : History) : Option History :=
  match h.outer with
  | [] => none
  | frame :: frames => some { h with current := frame, outer := frames }

def act (h : History) : Scope.Action → Option History
  | .bind name binding => some (h.bind name binding)
  | .enter o => some (h.enter o)
  | .enterBlock => some (h.enter {})
  | .enterLoop => some (h.enter { inLoop := some true })
  | .enterFunction id => some (h.enter { inLoop := some false, function := some (some id) })
  | .leave => h.leave?

def run (h : History) (actions : List Scope.Action) : Option History := actions.foldlM act h

end History

/-! ### The start -/

/-- What builtins stand for, where there are rows for so many variables and functions, in the order
in which their names are given, those of each one with its own name last. -/
def Builtin.bindingsFrom (vars funcs : Nat) : List Builtin → List (String × Binding)
  | [] => []
  | b :: bs =>
    let names := b.aliases ++ [b.name]
    match b.meaning with
    | .constant _ => names.map (·, .var ⟨vars⟩) ++ bindingsFrom (vars + 1) funcs bs
    | .function _ => names.map (·, .func ⟨funcs⟩) ++ bindingsFrom vars (funcs + 1) bs

/-- All names that the outermost frame is given before a program begins. -/
def Scope.rootBindings : List (String × Binding) :=
  Ty.primitives.map (fun p => (p.1, .type p.2)) ++ Builtin.bindingsFrom 0 0 Builtin.all

def History.root : History :=
  Scope.rootBindings.foldl (fun h p => h.bind p.1 p.2) ⟨[], [{}], 0, []⟩

theorem Scope.root_eq_foldl :
    root = rootBindings.foldl (fun s p => s.bind p.1 p.2) ⟨⟨[], false, none⟩, []⟩ := by
  rfl

theorem Scope.find?_bind_current (s : Scope) (name x : String) (b : Binding) :
    (s.bind name b).current.find? x = if x = name then some b else s.current.find? x := by
  rw [bind, Frame.find?, Frame.find?, List.lookup_cons]
  by_cases hx : x = name
  · rw [if_pos hx, beq_iff_eq.mpr hx]
  · rw [if_neg hx, beq_eq_false_iff_ne.mpr hx]

/-! ### What a history says of its frames -/

namespace History

variable {α : Type} {h h' : History} {frames : List Nat} {stack : List Frame} {o : Overrides}

theorem latest?_bind (h : History) (name : String) (b : Binding) (frame : Nat) (x : String) :
    (h.bind name b).latest? frame x =
      if frame = h.current ∧ x = name then some b else h.latest? frame x := by
  rw [latest?, bind, List.filter_append, List.getLast?_append]
  by_cases hsame : frame = h.current ∧ x = name
  · obtain ⟨rfl, rfl⟩ := hsame
    rw [if_pos ⟨rfl, rfl⟩]
    simp
  · have hother : (h.current == frame && name == x) = false := by
      rw [Bool.eq_false_iff, ne_eq, Bool.and_eq_true, beq_iff_eq, beq_iff_eq]
      exact fun hboth => hsame ⟨hboth.1.symm, hboth.2.symm⟩
    rw [if_neg hsame, List.filter_cons_of_neg (by simp [hother])]
    rfl

theorem isSome_latest? (frame : Nat) (name : String) :
    (h.latest? frame name).isSome =
      h.additions.any fun a => a.frame == frame && a.name == name := by
  rw [latest?, Option.isSome_map, Bool.eq_iff_iff, List.getLast?_isSome, ne_eq,
    List.filter_eq_nil_iff, List.any_eq_true]
  push Not
  rfl

/-- A frame that was not opened so far was given nothing. -/
theorem latest?_fresh (hknown : ∀ a ∈ h.additions, a.frame < h.overrides.length) (name : String) :
    h.latest? h.overrides.length name = none := by
  rw [latest?, Option.map_eq_none_iff, List.getLast?_eq_none_iff, List.filter_eq_nil_iff]
  intro a ha
  have hlt := hknown a ha
  simp [Nat.ne_of_lt hlt]

theorem setting?_congr (setting : Overrides → Option α)
    (hsame : ∀ i ∈ frames, h'.overrides[i]? = h.overrides[i]?) :
    h'.setting? setting frames = h.setting? setting frames := by
  induction frames with
  | nil => rfl
  | cons i frames ih =>
    obtain ⟨hi, hframes⟩ := List.forall_mem_cons.mp hsame
    have htail : frames.findSome? _ = frames.findSome? _ := ih hframes
    rw [setting?, setting?, List.findSome?_cons, List.findSome?_cons, hi, htail]

/-- A frame says what it was told, and otherwise what the frames around it say. -/
theorem setting?_cons (setting : Overrides → Option α) {i : Nat} (hi : h.overrides[i]? = some o) :
    h.setting? setting (i :: frames) = (setting o).or (h.setting? setting frames) := by
  rw [setting?, List.findSome?_cons, hi, Option.bind_some]
  cases setting o <;> rfl

/-- **What the frames of a stack say is what the history says of their numbers.** -/
inductive Shows (h : History) : List Nat → List Frame → Prop
  | nil : Shows h [] []
  | cons {i : Nat} {frames : List Nat} {frame : Frame} {stack : List Frame}
    (hfind : ∀ name, frame.find? name = h.latest? i name)
    (hloop : frame.inLoop = (h.setting? Overrides.inLoop (i :: frames)).getD false)
    (hfunction : frame.function = (h.setting? Overrides.function (i :: frames)).getD none)
    (hothers : Shows h frames stack) : Shows h (i :: frames) (frame :: stack)

/-- What happens to other frames does not change what these say. -/
theorem Shows.congr (hs : h.Shows frames stack)
    (hlatest : ∀ i ∈ frames, ∀ name, h'.latest? i name = h.latest? i name)
    (hsame : ∀ i ∈ frames, h'.overrides[i]? = h.overrides[i]?) : h'.Shows frames stack := by
  induction hs with
  | nil => exact .nil
  | cons hfind hloop hfunction _ ih =>
    refine .cons (fun name => ?_) ?_ ?_ (ih (List.forall_mem_cons.mp hlatest).2
      (List.forall_mem_cons.mp hsame).2)
    · rw [hfind, hlatest _ List.mem_cons_self]
    · rw [hloop, setting?_congr _ hsame]
    · rw [hfunction, setting?_congr _ hsame]

theorem Shows.findSome? (hs : h.Shows frames stack) (name : String) :
    stack.findSome? (·.find? name) = frames.findSome? (h.latest? · name) := by
  induction hs with
  | nil => rfl
  | cons hfind _ _ _ ih => rw [List.findSome?_cons, List.findSome?_cons, hfind, ih]

/-! ### A scope and its history -/

/-- **A history tells all of a scope.**  Open frames have different numbers, and all numbers are
those of frames that were opened. -/
structure Tells (h : History) (s : Scope) : Prop where
  shows : h.Shows h.live s.frames
  live : ∀ i ∈ h.live, i < h.overrides.length
  nodup : h.live.Nodup
  known : ∀ a ∈ h.additions, a.frame < h.overrides.length

variable {s : Scope}

theorem Tells.bind (ht : h.Tells s) (name : String) (b : Binding) :
    (h.bind name b).Tells (s.bind name b) := by
  obtain ⟨hshows, hlive, hnodup, hknown⟩ := ht
  refine ⟨?_, hlive, hnodup, fun a ha => ?_⟩
  · cases hshows with
    | cons hfind hloop hfunction hothers =>
      have hcurrent (x : String) :
          (s.bind name b).current.find? x = (h.bind name b).latest? h.current x := by
        rw [Scope.find?_bind_current, latest?_bind, hfind]
        simp
      have houter (i : Nat) (hi : i ∈ h.outer) (x : String) :
          (h.bind name b).latest? i x = h.latest? i x := by
        have hne : i ≠ h.current := by
          rintro rfl
          exact (List.nodup_cons.mp hnodup).1 hi
        rw [latest?_bind, if_neg fun hsame => hne hsame.1]
      exact .cons hcurrent hloop hfunction (hothers.congr houter fun _ _ => rfl)
  · rcases List.mem_append.mp ha with ha | ha
    · exact hknown a ha
    · rw [List.mem_singleton.mp ha]
      exact hlive _ List.mem_cons_self

theorem Tells.enter (ht : h.Tells s) (o : Overrides) : (h.enter o).Tells (s.enter o) := by
  obtain ⟨hshows, hlive, hnodup, hknown⟩ := ht
  have hsame (i : Nat) (hi : i ∈ h.live) : (h.enter o).overrides[i]? = h.overrides[i]? :=
    List.getElem?_append_left (hlive i hi)
  have hnew : (h.enter o).overrides[h.overrides.length]? = some o := List.getElem?_concat_length
  have hlength : (h.enter o).overrides.length = h.overrides.length + 1 := List.length_append
  have hsetting {α : Type} (setting : Overrides → Option α) (default : α) :
      ((h.enter o).setting? setting (h.enter o).live).getD default =
        (setting o).getD ((h.setting? setting h.live).getD default) := by
    have hcons : (h.enter o).setting? setting (h.overrides.length :: h.live) =
        (setting o).or ((h.enter o).setting? setting h.live) := setting?_cons setting hnew
    rw [setting?_congr _ hsame] at hcons
    rw [← Option.getD_or, ← hcons]
    rfl
  refine ⟨.cons (fun name => (latest?_fresh hknown name).symm) ?_ ?_
    (hshows.congr (fun _ _ _ => rfl) hsame), fun i hi => ?_, ?_, fun a ha => ?_⟩
  · cases hshows with
    | cons _ hloop => exact (congrArg (o.inLoop.getD ·) hloop).trans (hsetting _ _).symm
  · cases hshows with
    | cons _ _ hfunction => exact (congrArg (o.function.getD ·) hfunction).trans (hsetting _ _).symm
  · rw [hlength]
    rcases List.mem_cons.mp hi with rfl | hi
    · exact Nat.lt_succ_self _
    · exact Nat.lt_succ_of_lt (hlive i hi)
  · exact List.nodup_cons.mpr ⟨fun hmem => Nat.lt_irrefl _ (hlive _ hmem), hnodup⟩
  · rw [hlength]
    exact Nat.lt_succ_of_lt (hknown a ha)

theorem Tells.leave? (ht : h.Tells s) :
    Option.Rel (fun s h => Tells h s) s.leave? h.leave? := by
  obtain ⟨additions, overrides, current, outer⟩ := h
  obtain ⟨frame, stack⟩ := s
  obtain ⟨hshows, hlive, hnodup, hknown⟩ := ht
  cases hshows with
  | cons _ _ _ hothers =>
    cases hothers with
    | nil => exact .none
    | cons hfind hloop hfunction hrest =>
      refine .some ⟨?_, (List.forall_mem_cons.mp hlive).2, (List.nodup_cons.mp hnodup).2, hknown⟩
      exact (Shows.cons hfind hloop hfunction hrest).congr (fun _ _ _ => rfl) fun _ _ => rfl

/-- **An action keeps the history in step with the scope.** -/
theorem Tells.act (ht : h.Tells s) (action : Scope.Action) :
    Option.Rel (fun s h => Tells h s) (s.act action) (h.act action) := by
  cases action with
  | bind name b => exact .some (ht.bind name b)
  | enter o => exact .some (ht.enter o)
  | enterBlock => exact .some (ht.enter _)
  | enterLoop => exact .some (ht.enter _)
  | enterFunction id => exact .some (ht.enter _)
  | leave => exact ht.leave?

/-- **So do any actions, one after the other.** -/
theorem Tells.run (ht : h.Tells s) (actions : List Scope.Action) :
    Option.Rel (fun s h => Tells h s) (s.run actions) (h.run actions) := by
  induction actions generalizing h s with
  | nil => exact .some ht
  | cons action actions ih =>
    rw [Scope.run, History.run, List.foldlM_cons, List.foldlM_cons]
    have hact := ht.act action
    generalize s.act action = s' at hact ⊢
    generalize h.act action = h' at hact ⊢
    cases hact with
    | none => exact .none
    | some ht' => exact ih ht'

theorem tells_root : root.Tells Scope.root := by
  have hstart : Tells ⟨[], [{}], 0, []⟩ ⟨⟨[], false, none⟩, []⟩ :=
    ⟨.cons (fun _ => rfl) rfl rfl .nil, by decide, by decide, by decide⟩
  have hall (bindings : List (String × Binding)) (h : History) (s : Scope) (ht : h.Tells s) :
      Tells (bindings.foldl (fun h p => h.bind p.1 p.2) h)
        (bindings.foldl (fun s p => s.bind p.1 p.2) s) := by
    induction bindings generalizing h s with
    | nil => exact ht
    | cons p bindings ih => exact ih _ _ (ht.bind p.1 p.2)
  rw [Scope.root_eq_foldl]
  exact hall _ _ _ hstart

end History

/-! ### Answers -/

/-- **All answers of a scope are those of a history.** -/
structure Scope.AnswersAs (s : Scope) (h : History) : Prop where
  find? : ∀ name, s.find? name = h.find? name
  declares : ∀ name, s.declares name = h.declares name
  inLoop : s.inLoop = h.inLoop
  function : s.function = h.function

theorem History.Tells.answersAs {h : History} {s : Scope} (ht : h.Tells s) : s.AnswersAs h := by
  have hshows := ht.shows
  refine ⟨hshows.findSome?, fun name => ?_, ?_, ?_⟩
  · cases hshows with
    | cons hfind => rw [Scope.declares, hfind, isSome_latest?, History.declares]
  · cases hshows with
    | cons _ hloop => exact hloop
  · cases hshows with
    | cons _ _ hfunction => exact hfunction

/-! ### Frames that are left -/

namespace Scope

variable {s start : Scope} {actions inner : List Action} {opening : Action}

theorem run_cons (s : Scope) (action : Action) (actions : List Action) :
    s.run (action :: actions) = (s.act action).bind (·.run actions) :=
  List.foldlM_cons

theorem run_append (s : Scope) (actions others : List Action) :
    s.run (actions ++ others) = (s.run actions).bind (·.run others) :=
  List.foldlM_append

theorem exists_act_of_opens (s : Scope) (h : opening.opens = true) :
    ∃ o, s.act opening = some (s.enter o) := by
  cases opening with
  | enter o => exact ⟨o, rfl⟩
  | enterBlock | enterLoop | enterFunction => exact ⟨_, rfl⟩
  | bind | leave => cases h

/-- A frame whose actions leave the frames around it as they were is left where it was opened. -/
theorem run_frame (ho : opening.opens = true)
    (hinner : ∀ s : Scope, ∃ s', s.run inner = some s' ∧ s'.outer = s.outer) (s : Scope)
    (others : List Action) : s.run (opening :: (inner ++ .leave :: others)) = s.run others := by
  obtain ⟨o, hact⟩ := exists_act_of_opens s ho
  obtain ⟨s', hrun, houter⟩ := hinner (s.enter o)
  have hleave : s'.act .leave = some s := by
    rw [act, leave?, houter]
    rfl
  rw [run_cons, hact, Option.bind_some, run_append, hrun, Option.bind_some, run_cons, hleave,
    Option.bind_some]

/-- **Balanced actions leave the frames around the current one as they were.** -/
theorem exists_run_of_balanced (h : Action.Balanced actions) (s : Scope) :
    ∃ s', s.run actions = some s' ∧ s'.outer = s.outer := by
  induction h generalizing s with
  | nil => exact ⟨s, rfl, rfl⟩
  | bind name b _ ih => exact ih (s.bind name b)
  | frame ho _ _ ih ih' =>
    rw [run_frame ho ih]
    exact ih' s

/-- **A frame that is open was opened**, and the actions behind that are balanced. -/
theorem exists_opening (hstart : start.outer = []) {frame : Frame} {frames : List Frame}
    (hrun : start.run actions = some s) (houter : s.outer = frame :: frames) :
    ∃ before opening inner, actions = before ++ opening :: inner ∧ opening.opens = true ∧
      Action.Balanced inner ∧ start.run before = some ⟨frame, frames⟩ := by
  induction hn : actions.length using Nat.strong_induction_on generalizing actions s frame frames
  rename_i n ih
  rcases List.eq_nil_or_concat actions with rfl | ⟨others, action, rfl⟩
  · cases hrun
    rw [hstart] at houter
    cases houter
  rw [List.concat_eq_append] at hrun hn ⊢
  rw [List.length_append, List.length_singleton] at hn
  rw [run_append] at hrun
  obtain ⟨s₀, hothers, hact⟩ := Option.bind_eq_some_iff.mp hrun
  rw [run_cons] at hact
  obtain ⟨s₁, hact, hlast⟩ := Option.bind_eq_some_iff.mp hact
  cases hlast
  by_cases hopens : action.opens = true
  · -- The frame was opened just now.
    obtain ⟨o, henter⟩ := exists_act_of_opens s₀ hopens
    cases henter.symm.trans hact
    cases houter
    exact ⟨others, action, [], rfl, hopens, .nil, hothers⟩
  · cases action with
    | bind name b =>
      cases hact
      obtain ⟨before, opening, inner, rfl, ho, hinner, hbefore⟩ :=
        ih _ (by omega) hothers houter rfl
      refine ⟨before, opening, inner ++ [.bind name b], ?_, ho, ?_, hbefore⟩
      · rw [List.append_assoc, List.cons_append]
      · exact hinner.append (.bind name b .nil)
    | leave =>
      -- Another frame was left, so the one that is looked for was opened in front of that one.
      have hframes : s₀.outer = s.current :: s.outer := by
        have hcons := frames_of_leave? hact
        exact (List.cons.inj hcons).2
      obtain ⟨middle, opening', inner', rfl, ho', hinner', hmiddle⟩ :=
        ih _ (by omega) hothers hframes rfl
      rw [List.length_append, List.length_cons] at hn
      obtain ⟨before, opening, inner, rfl, ho, hinner, hbefore⟩ :=
        ih _ (by omega) hmiddle houter rfl
      refine ⟨before, opening, inner ++ opening' :: (inner' ++ [.leave]), ?_, ho, ?_, hbefore⟩
      · simp only [List.append_assoc, List.cons_append]
      · exact hinner.append (.frame ho' hinner' .nil)
    | enter | enterBlock | enterLoop | enterFunction => exact absurd rfl hopens

end Scope

/-- **A scope and its history.**  Whatever names are given and whatever frames are opened and left
from the start on, the scope has the answers of its history: a name means what the innermost open
frame that was given it was given last, the names that come with the language being the first ones
that the outermost frame was given; the current frame declares the names that it was given; and the
innermost open frame that was told so says whether a loop is around and which function's body this
is, no loop and none if no frame was told.  Neither goes on where the outermost frame is to be left.

Where a frame is left, the actions since the one that opened it are balanced; and behind such
actions the scope is again what it was in front of the one that opened the frame, and so are all
its answers. -/
theorem scope_history (actions : List Scope.Action) :
    Option.Rel Scope.AnswersAs (Scope.root.run actions) (History.root.run actions) ∧
    (∀ s, Scope.root.run (actions ++ [.leave]) = some s → ∃ before opening inner,
      actions = before ++ opening :: inner ∧ opening.opens = true ∧
      Scope.Action.Balanced inner) ∧
    ∀ before opening inner, actions = before ++ opening :: inner → opening.opens = true →
      Scope.Action.Balanced inner →
        Scope.root.run (actions ++ [.leave]) = Scope.root.run before := by
  refine ⟨?_, fun s hrun => ?_, ?_⟩
  · have hrel := History.tells_root.run actions
    generalize Scope.root.run actions = s at hrel ⊢
    generalize History.root.run actions = h at hrel ⊢
    cases hrel with
    | none => exact .none
    | some ht => exact .some ht.answersAs
  · rw [Scope.run_append] at hrun
    obtain ⟨s₀, hactions, hleave⟩ := Option.bind_eq_some_iff.mp hrun
    rw [Scope.run_cons] at hleave
    obtain ⟨s₁, hleave, -⟩ := Option.bind_eq_some_iff.mp hleave
    have hframes : s₀.outer = s₁.current :: s₁.outer :=
      (List.cons.inj (Scope.frames_of_leave? hleave)).2
    obtain ⟨before, opening, inner, hsplit, ho, hinner, -⟩ :=
      Scope.exists_opening rfl hactions hframes
    exact ⟨before, opening, inner, hsplit, ho, hinner⟩
  · rintro before opening inner rfl ho hinner
    rw [List.append_assoc, Scope.run_append, List.cons_append]
    have hframe (s : Scope) : s.run (opening :: (inner ++ [.leave])) = some s :=
      Scope.run_frame ho (Scope.exists_run_of_balanced hinner) s []
    simp only [hframe]
    exact Option.bind_fun_some _

/-- A function within a loop within a function, and a frame that is in no function at all. -/
example : (Scope.root.run [.enterFunction ⟨7⟩, .bind "pi" (.var ⟨100⟩), .enterLoop,
      .bind "x" (.var ⟨101⟩), .enterFunction ⟨8⟩, .leave, .enter { function := some none }]).map
        (fun s => (s.find? "pi", s.declares "x", s.inLoop, s.function)) =
    some (some (.var ⟨100⟩), false, true, none) := by
  decide

end TypedImp
