import TypedImp.Proofs.Meaning.Value

/-!
# Behaviors

A behavior says how a part of a program can end: it relates a store to a result, a
printed output and the store at the end.  The result is a value of interest or a
jump.  A behavior need not have any end, and it can have many.

Behaviors form a monad.  `handle` runs one behavior after another and shows the
second how the first one ended; in a `do` block a jump passes over all that follows.
`loop` takes turns until one of them leaves no state for the next.

`Alike E P f g` says that two behaviors have the same ends from all stores that are
typed relative to `E`, that the store stays typed, and that the values they end with
satisfy `P`.  There is one lemma for each way of making a behavior.
-/

namespace TypedImp

/-- How a part of a program can end without a value. -/
inductive Jump where
  | breakLoop
  | continueLoop
  | ret (value : Option Value)
  | throw (message : String)

def Behavior (α : Type) : Type := Store → Except Jump α → List Value → Store → Prop

namespace Behavior

variable {α β γ σ : Type}

theorem ext {f g : Behavior α} (h : ∀ s r out s', f s r out s' ↔ g s r out s') : f = g :=
  funext fun s => funext fun r => funext fun out => funext fun s' => propext (h s r out s')

/-! ### One after another -/

def done (last : Except Jump α) : Behavior α := fun s r out s' => r = last ∧ out = [] ∧ s' = s

def stuck : Behavior α := fun _ _ _ _ => False

/-- A behavior and then another one, which depends on how the first one ended. -/
def handle (f : Behavior α) (next : Except Jump α → Behavior β) : Behavior β :=
  fun s r out s' => ∃ q first mid second,
    f s q first mid ∧ next q mid r second s' ∧ out = first ++ second

/-- Goes on with a value and lets a jump pass. -/
def after (next : α → Behavior β) : Except Jump α → Behavior β
  | .ok a => next a
  | .error jump => done (.error jump)

instance : Monad Behavior where
  pure a := done (.ok a)
  bind f next := handle f (after next)

theorem handle_done (last : Except Jump α) (next : Except Jump α → Behavior β) :
    handle (done last) next = next last := by
  refine ext fun s r out s' => ⟨?_, fun h => ⟨last, [], s, out, ⟨rfl, rfl, rfl⟩, h, rfl⟩⟩
  rintro ⟨_, _, _, second, ⟨rfl, rfl, rfl⟩, h, rfl⟩
  exact h

theorem done_handle (f : Behavior α) : handle f done = f := by
  refine ext fun s r out s' => ⟨?_, fun h => ⟨r, out, s', [], h, ⟨rfl, rfl, rfl⟩, by simp⟩⟩
  rintro ⟨_, first, _, _, h, ⟨rfl, rfl, rfl⟩, rfl⟩
  rw [List.append_nil]
  exact h

theorem handle_handle (f : Behavior α) (g : Except Jump α → Behavior β)
    (h : Except Jump β → Behavior γ) :
    handle (handle f g) h = handle f fun q => handle (g q) h := by
  refine ext fun s r out s' => ⟨?_, ?_⟩
  · rintro ⟨q, _, mid, third, ⟨p, first, mid₀, second, hf, hg, rfl⟩, hh, rfl⟩
    exact ⟨p, first, mid₀, second ++ third, hf, ⟨q, second, mid, third, hg, hh, rfl⟩,
      List.append_assoc ..⟩
  · rintro ⟨p, first, mid₀, _, hf, ⟨q, second, mid, third, hg, hh, rfl⟩, rfl⟩
    exact ⟨q, first ++ second, mid, third, ⟨p, first, mid₀, second, hf, hg, rfl⟩, hh,
      (List.append_assoc ..).symm⟩

theorem after_done : after (fun a : α => done (.ok a)) = done :=
  funext fun r => by cases r <;> rfl

theorem after_handle (g : α → Behavior β) (h : β → Behavior γ) :
    (fun q => handle (after g q) (after h)) = after fun a => handle (g a) (after h) :=
  funext fun q => by
    cases q with
    | ok a => rfl
    | error jump => exact handle_done ..

instance : LawfulMonad Behavior :=
  LawfulMonad.mk' Behavior
    (fun f => (congrArg (handle f) after_done).trans (done_handle f))
    (fun a next => handle_done (.ok a) (after next))
    (fun f g h => (handle_handle ..).trans (congrArg (handle f) (after_handle g h)))

/-- A first behavior that prints nothing does not show in the output. -/
theorem bind_of_silent {f : Behavior α} {next : α → Behavior β} {s mid s' : Store} {a : α}
    {r : Except Jump β} {out : List Value} (hf : f s (.ok a) [] mid) (hn : next a mid r out s') :
    (f >>= next) s r out s' := ⟨.ok a, [], mid, out, hf, hn, rfl⟩

/-! ### Variables and output -/

def load (id : VariableId) : Behavior Value :=
  fun s r out s' => r = .ok (s id) ∧ out = [] ∧ s' = s

def save (id : VariableId) (v : Value) : Behavior Unit :=
  fun s r out s' => r = .ok () ∧ out = [] ∧ s' = Function.update s id v

def emit (v : Value) : Behavior Unit := fun s r out s' => r = .ok () ∧ out = [v] ∧ s' = s

/-- A variable that is given the value that it has does not change. -/
theorem load_bind_save (id : VariableId) : load id >>= save id = pure () := by
  refine ext fun s r out s' => ⟨?_, ?_⟩
  · rintro ⟨_, _, _, _, ⟨rfl, rfl, rfl⟩, ⟨rfl, rfl, rfl⟩, rfl⟩
    exact ⟨rfl, rfl, Function.update_eq_self id _⟩
  · rintro ⟨rfl, rfl, rfl⟩
    exact ⟨_, [], s', [], ⟨rfl, rfl, rfl⟩, ⟨rfl, rfl, (Function.update_eq_self id _).symm⟩, rfl⟩

/-! ### Loops -/

def turns (turn : σ → Behavior (Option σ)) : Nat → σ → Behavior Unit
  | 0, _ => stuck
  | n + 1, x => do
    match ← turn x with
    | some x => turns turn n x
    | none => pure ()

def loop (turn : σ → Behavior (Option σ)) (x : σ) : Behavior Unit :=
  fun s r out s' => ∃ n, turns turn n x s r out s'

/-- A loop takes one turn and is a loop again if there is a state for it. -/
theorem loop_eq (turn : σ → Behavior (Option σ)) (x : σ) :
    loop turn x = turn x >>= fun
      | some y => loop turn y
      | none => pure () := by
  refine ext fun s r out s' => ⟨?_, ?_⟩
  · rintro ⟨n, hn⟩
    cases n with
    | zero => exact hn.elim
    | succ n =>
      obtain ⟨q, first, mid, second, ht, hq, rfl⟩ := hn
      refine ⟨q, first, mid, second, ht, ?_, rfl⟩
      match q with
      | .ok (some y) => exact ⟨n, hq⟩
      | .ok none => exact hq
      | .error jump => exact hq
  · rintro ⟨q, first, mid, second, ht, hq, rfl⟩
    match q with
    | .ok (some y) =>
      obtain ⟨n, hn⟩ := hq
      exact ⟨n + 1, _, first, mid, second, ht, hn, rfl⟩
    | .ok none => exact ⟨1, _, first, mid, second, ht, hq, rfl⟩
    | .error jump => exact ⟨1, _, first, mid, second, ht, hq, rfl⟩

theorem loop_of_stop {turn : σ → Behavior (Option σ)} {x : σ} (h : turn x = pure none) :
    loop turn x = pure () := by
  rw [loop_eq, h, pure_bind]

end Behavior

/-! ### Behaviors that are alike -/

/-- The same ends from all typed stores; the store stays typed, and the values satisfy
`P`. -/
structure Alike {α : Type} (E : Entities) (P : α → Prop) (f g : Behavior α) : Prop where
  iff : ∀ {s : Store} {r : Except Jump α} {out : List Value} {s' : Store}, s.Typed E →
    (f s r out s' ↔ g s r out s')
  typed : ∀ {s : Store} {r : Except Jump α} {out : List Value} {s' : Store}, s.Typed E →
    f s r out s' → s'.Typed E
  value : ∀ {s : Store} {a : α} {out : List Value} {s' : Store}, s.Typed E →
    f s (.ok a) out s' → P a

namespace Alike

open Behavior

variable {α β σ : Type} {E : Entities} {P : α → Prop} {Q : β → Prop} {f g h : Behavior α}

theorem trans (hfg : Alike E P f g) (hgh : Alike E P g h) : Alike E P f h :=
  ⟨fun hs => (hfg.iff hs).trans (hgh.iff hs), hfg.typed, hfg.value⟩

/-- The second of two is like itself. -/
theorem right (hfg : Alike E P f g) : Alike E P g g :=
  ⟨fun _ => .rfl, fun hs hg => hfg.typed hs ((hfg.iff hs).mpr hg),
    fun hs hg => hfg.value hs ((hfg.iff hs).mpr hg)⟩

theorem done {r : Except Jump α} (hr : ∀ a, r = .ok a → P a) :
    Alike E P (Behavior.done r) (Behavior.done r) where
  iff _ := .rfl
  typed hs := by rintro ⟨_, _, rfl⟩; exact hs
  value _ := by rintro ⟨he, _, _⟩; exact hr _ he.symm

theorem pure {a : α} (ha : P a) : Alike E P (Pure.pure a : Behavior α) (Pure.pure a) :=
  done fun b hb => by rwa [← Except.ok.inj hb]

theorem jump (j : Jump) : Alike E P (Behavior.done (.error j)) (Behavior.done (.error j)) :=
  done fun _ h => by cases h

theorem stuck : Alike E P Behavior.stuck Behavior.stuck := ⟨fun _ => .rfl, fun _ => False.elim,
  fun _ => False.elim⟩

theorem handle {k l : Except Jump α → Behavior β} (hfg : Alike E P f g)
    (hkl : ∀ r, (∀ a, r = .ok a → P a) → Alike E Q (k r) (l r)) :
    Alike E Q (f.handle k) (g.handle l) := by
  have value : ∀ {s q first mid}, s.Typed E → f s q first mid → ∀ a, q = .ok a → P a := by
    rintro s q first mid hs hf a rfl
    exact hfg.value hs hf
  constructor
  · intro s r out s' hs
    constructor
    · rintro ⟨q, first, mid, second, hf, hk, rfl⟩
      exact ⟨q, first, mid, second, (hfg.iff hs).mp hf,
        ((hkl q (value hs hf)).iff (hfg.typed hs hf)).mp hk, rfl⟩
    · rintro ⟨q, first, mid, second, hg, hl, rfl⟩
      have hf := (hfg.iff hs).mpr hg
      exact ⟨q, first, mid, second, hf,
        ((hkl q (value hs hf)).iff (hfg.typed hs hf)).mpr hl, rfl⟩
  · rintro s r out s' hs ⟨q, first, mid, second, hf, hk, rfl⟩
    exact (hkl q (value hs hf)).typed (hfg.typed hs hf) hk
  · rintro s a out s' hs ⟨q, first, mid, second, hf, hk, rfl⟩
    exact (hkl q (value hs hf)).value (hfg.typed hs hf) hk

theorem bind {k l : α → Behavior β} (hfg : Alike E P f g)
    (hkl : ∀ a, P a → Alike E Q (k a) (l a)) : Alike E Q (f >>= k) (g >>= l) := by
  refine hfg.handle fun r hr => ?_
  cases r with
  | ok a => exact hkl a (hr a rfl)
  | error j => exact .jump j

theorem load {id : VariableId} {ty : Ty} (hid : E.HasVariable id ty) :
    Alike E (·.HasTy E ty) (Behavior.load id) (Behavior.load id) where
  iff _ := .rfl
  typed hs := by rintro ⟨_, _, rfl⟩; exact hs
  value hs := by
    rintro ⟨hr, _, _⟩
    rw [Except.ok.inj hr]
    exact hs hid

theorem save {id : VariableId} {ty : Ty} (hid : E.HasVariable id ty) {v : Value}
    (hv : v.HasTy E ty) : Alike E (fun _ => True) (Behavior.save id v) (Behavior.save id v) where
  iff _ := .rfl
  typed hs := by rintro ⟨_, _, rfl⟩; exact hs.update hid hv
  value _ _ := trivial

theorem emit (v : Value) : Alike E (fun _ => True) (Behavior.emit v) (Behavior.emit v) where
  iff _ := .rfl
  typed hs := by rintro ⟨_, _, rfl⟩; exact hs
  value _ _ := trivial

/-- Loops whose turns are alike are alike.  `I` is what the states of the loop satisfy. -/
theorem loop {I : σ → Prop} {turn turn' : σ → Behavior (Option σ)}
    (h : ∀ x, I x → Alike E (fun next => ∀ y ∈ next, I y) (turn x) (turn' x)) {x : σ} (hx : I x) :
    Alike E (fun _ => True) (Behavior.loop turn x) (Behavior.loop turn' x) := by
  have bounded : ∀ n x, I x → Alike E (fun _ => True) (turns turn n x) (turns turn' n x) := by
    intro n
    induction n with
    | zero => exact fun _ _ => .stuck
    | succ n ih =>
      intro x hx
      refine (h x hx).bind fun next hnext => ?_
      cases next with
      | none => exact .pure trivial
      | some y => exact ih y (hnext y rfl)
  exact ⟨fun hs => exists_congr fun n => (bounded n x hx).iff hs,
    fun hs ⟨n, hn⟩ => (bounded n x hx).typed hs hn, fun _ _ => trivial⟩

end Alike

end TypedImp
