import PlatformLayer.Proofs.ComparedCalls

/-!
# Comparing client code

Client code that is run twice, from worlds with the same objects and the same contexts, does the
same things, however deep it nests. Two things may differ between the two sides: whether the objects
are the client's own or shared, and how threads are numbered.
-/

namespace PlatformLayer

namespace Setting

variable {σ : Type} (S : Setting σ)

/-- Code on a thread, for what it returns. -/
def execBody (inner : Option (Runner σ)) (t : Nat) (body : Program .thread) :
    Action σ (List Reply) := do
  let (replies, _) ← S.exec inner t body ()
  pure replies

/-- Threads that all run the same code. -/
def startBodies (inner : Option (Runner σ)) (body : Program .thread) :
    Nat → Action σ (List (List Reply)) :=
  startThreads fun t => S.execBody inner t body

/-- What runs the client code that code at this depth causes to be called. -/
def innerAt : Nat → Option (Runner σ)
  | 0 => none
  | depth + 1 => some (S.runAt depth)

theorem runAt_eq_exec (depth : Nat) {ρ : Role} (t : Nat) (program : Program ρ) (own : ρ.Local) :
    S.runAt depth ρ t program own = S.exec (S.innerAt depth) t program own := by
  cases depth <;> rfl

def runThread (depth t : Nat) (program : Program .thread) : Action σ (List Reply × Unit) :=
  S.runAt depth .thread t program ()

theorem runThread_eq_exec (depth t : Nat) (program : Program .thread) :
    S.runThread depth t program = S.exec (S.innerAt depth) t program () :=
  S.runAt_eq_exec depth t program ()

end Setting

/-- How the threads of two runs correspond, and how many each has started. -/
structure Numbering where
  threads : Nat → Nat → Prop
  counts : Nat → Nat → Prop
  threads_next : ∀ {n n'}, counts n n' → threads (n + 1) (n' + 1)
  counts_next : ∀ {n n'}, counts n n' → counts (n + 1) (n' + 1)

def Numbering.same : Numbering where
  threads := Eq
  counts := Eq
  threads_next h := congrArg (· + 1) h
  counts_next h := congrArg (· + 1) h

/-- The threads are numbered in any way at all. -/
def Numbering.any : Numbering where
  threads _ _ := True
  counts _ _ := True
  threads_next _ := trivial
  counts_next _ := trivial

/-- Worlds that differ in nothing but where the objects lie and how many threads were started. -/
structure World.Like {scope scope' : Scope} (counts : Nat → Nat → Prop) (w : World scope.State)
    (w' : World scope'.State) : Prop where
  objects : Scope.objects w.state = Scope.objects w'.state
  contexts : w.contexts = w'.contexts
  counts : counts w.threads w'.threads

/-- Compares layers that hold the same objects. -/
def Comparison.renumbering (scope scope' : Scope) (N : Numbering) (admits : Happening → Prop) :
    Comparison scope.State scope'.State where
  worlds := World.Like N.counts
  states x x' := Scope.objects x = Scope.objects x'
  threads := N.threads
  admits := admits
  stops _ := True
  states_of_worlds hw := hw.objects

namespace Renumbering

open Comparison (renumbering Matches)

variable {scope scope' : Scope} {N : Numbering} {admits : Happening → Prop} {α : Type}

theorem reads (part : Cell Objects α) :
    (renumbering scope scope' N admits).Reads (scope.cell part) (scope'.cell part) := by
  intro w w' hw
  rw [Scope.cell_get, Scope.cell_get, hw.objects]

theorem writes (part : Cell Objects α) (a : α) :
    (renumbering scope scope' N admits).Writes (scope.cell part) (scope'.cell part) a := by
  intro w w' hw
  refine ⟨?_, hw.contexts, hw.counts⟩
  rw [Scope.objects_cell_set, Scope.objects_cell_set, hw.objects]

theorem sharesContexts : (renumbering scope scope' N admits).SharesContexts where
  same hw := hw.contexts
  overwritten hw _ := ⟨hw.objects, rfl, hw.counts⟩

theorem matches_replace {clients : Clients} {host : Capability → Bool}
    {inner : Option (Runner scope.State)} {inner' : Option (Runner scope'.State)} {t t' : Nat}
    (hscope : scope = scope') (component : Component) :
    (renumbering scope scope' N admits).Matches
      ((scope.setting clients host).perform inner t (.replace component))
      ((scope'.setting clients host).perform inner' t' (.replace component)) := by
  subst hscope
  cases scope with
  | shared => exact .ret _
  | own =>
      refine .bind (.modify fun w w' hw => ?_) fun _ => .ret _
      exact ⟨congrArg (Objects.replace · component) hw.objects, hw.contexts, hw.counts⟩

/-- Threads correspond by the order in which they are started. -/
theorem matches_threads {clients : Clients} {host : Capability → Bool}
    {inner : Option (Runner scope.State)} {inner' : Option (Runner scope'.State)}
    {body : Program .thread}
    (hbody : ∀ {t t'}, N.threads t t' → (renumbering scope scope' N admits).Matches
      ((scope.setting clients host).exec inner t body ())
      ((scope'.setting clients host).exec inner' t' body ())) (n : Nat) :
    (renumbering scope scope' N admits).Matches
      ((scope.setting clients host).startBodies inner body n)
      ((scope'.setting clients host).startBodies inner' body n) := by
  refine Setting.matches_startThreads (fun w w' hw => ?_) (fun w w' hw => ?_) n
  · exact ⟨hw.objects, hw.contexts, N.counts_next hw.counts⟩
  · exact .bind (hbody (N.threads_next hw.counts)) fun r => .ret r.1

/-- What only an owner can call is either there on both sides or not called. -/
def SharesCalls (scope scope' : Scope) (admits : Happening → Prop) : Prop :=
  scope = scope' ∨ ∀ t op, op.ownerOnly → ¬ admits (.called t (.operation op))

/-- Client code further in does the same on both sides. -/
def RunsAll (scope scope' : Scope) (N : Numbering) (admits : Happening → Prop)
    (inner : Option (Runner scope.State)) (inner' : Option (Runner scope'.State)) : Prop :=
  ∀ {ρ : Role} {t t' : Nat}, N.threads t t' → ∀ program : Program ρ,
    (renumbering scope scope' N admits).RunsAlike inner inner' t t' program

variable {clients : Clients} {host : Capability → Bool} {inner : Option (Runner scope.State)}
  {inner' : Option (Runner scope'.State)} (hcalls : SharesCalls scope scope' admits)
  (hinner : RunsAll scope scope' N admits inner inner')
include hcalls hinner

theorem matches_operation {t t' : Nat} (ht : N.threads t t') (op : Operation) :
    (renumbering scope scope' N admits).Matches
      (Setting.making t (.operation op) ((scope.setting clients host).perform inner t op))
      (Setting.making t' (.operation op) ((scope'.setting clients host).perform inner' t' op)) := by
  -- an owner's call to the other kind of layer is never admitted, so nothing is to be shown for it
  by_cases hshared : op.ownerOnly → scope = scope'
  · apply Setting.matches_making ht
    cases hconcerns : op.concerns? with
    | none =>
        cases op <;> cases hconcerns
        exact matches_replace (hshared rfl) _
    | some component =>
        cases component with
        | registry =>
            exact Setting.matches_perform_registry hshared hconcerns (reads _)
              (fun _ => ⟨trivial, writes _⟩) fun _ => trivial
        | handlerSlot =>
            exact Setting.matches_perform_handlerSlot hshared hconcerns (reads _)
              (fun k _ => writes _ _) (fun k _ fault => hinner ht _) sharesContexts
        | exitSlot =>
            exact Setting.matches_perform_exitSlot hshared hconcerns (reads _)
              (fun k _ => writes _ _) (writes _ _) ht fun k _ => hinner ht _
  · obtain ⟨howner, hscope⟩ := Classical.not_imp.mp hshared
    have hbarred := hcalls.resolve_left hscope t op howner
    exact .of_barred fun w => ⟨⟨.called t (.operation op), w.state⟩, List.mem_cons_self, hbarred⟩

theorem matches_exec {ρ : Role} (program : Program ρ) {t t' : Nat} (ht : N.threads t t')
    (own : ρ.Local) :
    (renumbering scope scope' N admits).Matches
      ((scope.setting clients host).exec inner t program own)
      ((scope'.setting clients host).exec inner' t' program own) := by
  induction program generalizing t t' with
  | ret v => exact .ret (v, own)
  | call op next ih => exact .bind (matches_operation hcalls hinner ht op) fun r => ih r ht own
  | init ask skipped next _ ih =>
      refine .bind (Setting.matches_making ht .init ?_) fun r => ih r ht own
      exact Setting.matches_init (reads _) (writes _) trivial
        fun c => Setting.matches_askClient (hinner ht (ask c)) skipped
  | spawn n body next ihbody ih =>
      -- the numbers of the new threads correspond because the counts do
      exact .bind (matches_threads (fun ht => ihbody ht ()) n) fun results => ih _ ht own
  | note r next ih => exact .bind (.mark (.same rfl)) fun _ => ih ht own
  | load place next ih => exact ih _ ht own
  | store place v next ih => exact .bind (.mark (.same rfl)) fun _ => ih ht _
  | forward fault next ih =>
      refine .bind (Setting.matches_forwardOwn (reads _) ?_ ht fault own) fun r => ih r.1 ht r.2
      exact fun k _ fault => hinner ht _

end Renumbering

open Comparison (renumbering)

section Depth

variable {scope scope' : Scope} {N : Numbering} {admits : Happening → Prop}
  (hcalls : Renumbering.SharesCalls scope scope' admits) (clients : Clients)
  (host : Capability → Bool) (depth : Nat)
include hcalls

theorem runsAll_innerAt : Renumbering.RunsAll scope scope' N admits
    ((scope.setting clients host).innerAt depth) ((scope'.setting clients host).innerAt depth) := by
  induction depth with
  | zero => exact fun _ _ => .none
  | succ depth ih =>
      refine fun ht program => .some fun own => ?_
      rw [Setting.runAt_eq_exec, Setting.runAt_eq_exec]
      exact Renumbering.matches_exec hcalls ih program ht own

/-- **Client code does the same on layers that hold the same objects**, at every nesting depth. -/
theorem matches_runAt {ρ : Role} (program : Program ρ) {t t' : Nat} (ht : N.threads t t')
    (own : ρ.Local) :
    (renumbering scope scope' N admits).Matches
      ((scope.setting clients host).runAt depth ρ t program own)
      ((scope'.setting clients host).runAt depth ρ t' program own) := by
  rw [Setting.runAt_eq_exec, Setting.runAt_eq_exec]
  exact Renumbering.matches_exec hcalls (runsAll_innerAt hcalls clients host depth) program ht own

end Depth

end PlatformLayer
