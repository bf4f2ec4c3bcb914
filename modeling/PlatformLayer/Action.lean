import PlatformLayer.History

/-!
# Actions

An action runs on a world and reports how it ended, the world it leaves and the history it made. An
action that halts, or hangs waiting for itself, is the last one of its run: nothing bound after it
happens.
-/

namespace PlatformLayer

/-- The state of a run: the layer's own state, the numbered register contexts, and how many threads
have been started. -/
structure World (σ : Type) where
  state : σ
  contexts : List Registers
  threads : Nat

inductive Outcome (α : Type) where
  | returned (a : α)
  | halted (h : Halt)
  | hung

structure Report (σ α : Type) where
  outcome : Outcome α
  world : World σ
  history : History σ

def Action (σ α : Type) := World σ → Report σ α

namespace Action

variable {σ α β γ : Type}

def ret (a : α) : Action σ α := fun w => ⟨.returned a, w, []⟩

def andThen (x : Action σ α) (f : α → Action σ β) : Action σ β := fun w =>
  match x w with
  | ⟨.returned a, w', first⟩ =>
    let rest := f a w'
    ⟨rest.outcome, rest.world, first ++ rest.history⟩
  | ⟨.halted h, w', first⟩ => ⟨.halted h, w', first⟩
  | ⟨.hung, w', first⟩ => ⟨.hung, w', first⟩

instance : Monad (Action σ) where
  pure := ret
  bind := andThen

theorem pure_eq (a : α) : (pure a : Action σ α) = ret a := rfl

theorem bind_eq (x : Action σ α) (f : α → Action σ β) : x >>= f = andThen x f := rfl

theorem ret_andThen (a : α) (f : α → Action σ β) : andThen (ret a) f = f a := by
  funext w
  rfl

theorem andThen_ret (x : Action σ α) : andThen x ret = x := by
  funext w
  unfold andThen
  match x w with
  | ⟨.returned a, w', first⟩ => simp [ret]
  | ⟨.halted h, w', first⟩ => rfl
  | ⟨.hung, w', first⟩ => rfl

theorem andThen_assoc (x : Action σ α) (f : α → Action σ β) (g : β → Action σ γ) :
    andThen (andThen x f) g = andThen x fun a => andThen (f a) g := by
  funext w
  unfold andThen
  match x w with
  | ⟨.halted h, w', first⟩ => rfl
  | ⟨.hung, w', first⟩ => rfl
  | ⟨.returned a, w', first⟩ =>
      simp only
      match f a w' with
      | ⟨.returned b, w'', second⟩ => simp
      | ⟨.halted h, w'', second⟩ => rfl
      | ⟨.hung, w'', second⟩ => rfl

instance : LawfulMonad (Action σ) :=
  LawfulMonad.mk' (Action σ) andThen_ret ret_andThen andThen_assoc

/-- Records a happening at the present state. -/
def mark (what : Happening) : Action σ Unit := fun w => ⟨.returned (), w, [⟨what, w.state⟩]⟩

def emit (e : Event) : Action σ Unit := mark (.event e)

def log (n : Notice) : Action σ Unit := emit (.logged n)

def get : Action σ (World σ) := fun w => ⟨.returned w, w, []⟩

def modify (f : World σ → World σ) : Action σ Unit := fun w => ⟨.returned (), f w, []⟩

/-- A halt is announced in the log before it takes effect. -/
def halt (h : Halt) : Action σ α := do
  log (.halting h)
  fun w => ⟨.halted h, w, []⟩

/-- Waits for something that only the waiting code could bring about. -/
def hang : Action σ α := fun w => ⟨.hung, w, []⟩

end Action

/-- A component of a larger state. -/
structure Cell (σ α : Type) where
  get : σ → α
  set : α → σ → σ

namespace Cell

variable {σ α : Type}

def read (cell : Cell σ α) : Action σ α := fun w => ⟨.returned (cell.get w.state), w, []⟩

def write (cell : Cell σ α) (a : α) : Action σ Unit := fun w =>
  ⟨.returned (), { w with state := cell.set a w.state }, []⟩

end Cell

end PlatformLayer
