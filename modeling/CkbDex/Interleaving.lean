import CkbDex.Programs

/-!
# Interleaved programs

Several programs run at once on one state. At each step one of them makes its
next call, so what holds after every call holds after every run, and a program
that is left alone computes what its evaluation does.
-/
namespace CkbDex.Interleaving
open Programs

variable {Op : Type} {Ans Res : Op → Type} {ε σ α β : Type}

/-- A program makes its next call, which answers and changes the state. -/
inductive Call (performs : (op : Op) → σ → Ans op → σ → Prop) :
    σ × Prog Op Ans α → σ × Prog Op Ans α → Prop
  | perform (op : Op) (s t : σ) (answer : Ans op) (next : Ans op → Prog Op Ans α)
      (performed : performs op s answer t) : Call performs (s, .call op next) (t, next answer)

abbrev Calls (performs : (op : Op) → σ → Ans op → σ → Prop) :
    σ × Prog Op Ans α → σ × Prog Op Ans α → Prop :=
  Relation.ReflTransGen (Call performs)

section
variable {performs : (op : Op) → σ → Ans op → σ → Prop} {handle : (op : Op) → σ → Ans op × σ}
  {allowed : Op → Prop} {s t : σ}

theorem calls_bind {p q : Prog Op Ans α} (h : Calls performs (s, p) (t, q)) (f : α → Prog Op Ans β) :
    Calls performs (s, p.bind f) (t, q.bind f) := by
  have hlift : ∀ a b : σ × Prog Op Ans α, Call performs a b →
      Call performs (a.1, a.2.bind f) (b.1, b.2.bind f) := by
    intro a b hcall
    cases hcall with
    | perform op s t answer next performed => exact .perform op s t answer _ performed
  exact Relation.ReflTransGen.lift (fun x : σ × Prog Op Ans α => (x.1, x.2.bind f)) hlift _ _ h

/-- A program can run the way it evaluates. -/
theorem calls_eval (hhandle : ∀ op, allowed op → ∀ s, performs op s (handle op s).1 (handle op s).2)
    {p : Prog Op Ans α} (hp : p.Only allowed) (s : σ) :
    Calls performs (s, p) ((p.eval handle s).2, .pure (p.eval handle s).1) := by
  induction p generalizing s with
  | pure a => exact .refl
  | call op next ih =>
      have hcall : Call performs (s, .call op next) ((handle op s).2, next (handle op s).1) :=
        .perform op s _ _ next (hhandle op hp.1 s)
      exact (ih _ (hp.2 _) _).head hcall

end

section
variable {performs : (op : Op) → σ → Except ε (Res op) → σ → Prop}
  {handle : (op : Op) → σ → Except ε (Res op) × σ} {allowed : Op → Prop} {s t : σ}

/-- The next call succeeds. -/
theorem call_ok {op : Op} {a : Res op} {f : Res op → Action Op Res ε α}
    (h : performs op s (Except.ok a) t) :
    Call performs (s, (perform op >>= f).run) (t, (f a).run) := by
  have hcall : Call performs (s, Prog.call op fun answer => (Prog.pure answer).bind
      (ExceptT.bindCont f)) (t, (Prog.pure (Except.ok a)).bind (ExceptT.bindCont f)) := by
    apply Call.perform
    exact h
  exact hcall

theorem calls_of_eval
    (hhandle : ∀ op, allowed op → ∀ s, performs op s (handle op s).1 (handle op s).2)
    {x : Action Op Res ε α} (hx : Only allowed x) {r : Except ε α} (h : eval handle x s = (r, t)) :
    Calls performs (s, x.run) (t, .pure r) := by
  have hcalls := calls_eval hhandle hx s
  rw [show x.run.eval handle s = (r, t) from h] at hcalls
  exact hcalls

theorem calls_seq {x y : Action Op Res ε α} (h : Calls performs (s, x.run) (t, y.run))
    (f : α → Action Op Res ε β) : Calls performs (s, (x >>= f).run) (t, (y >>= f).run) :=
  calls_bind h (ExceptT.bindCont f)

/-- The first part of a sequence has run. -/
theorem calls_bind_ok
    (hhandle : ∀ op, allowed op → ∀ s, performs op s (handle op s).1 (handle op s).2)
    {x : Action Op Res ε α} (hx : Only allowed x) {a : α} (h : eval handle x s = (.ok a, t))
    (f : α → Action Op Res ε β) : Calls performs (s, (x >>= f).run) (t, (f a).run) :=
  calls_bind (calls_of_eval hhandle hx h) (ExceptT.bindCont f)

theorem calls_tryCatch {x y : Action Op Res ε α} (h : Calls performs (s, x.run) (t, y.run))
    (f : ε → Action Op Res ε α) :
    Calls performs (s, (tryCatch x f).run) (t, (tryCatch y f).run) :=
  calls_bind h fun r => match r with
    | Except.ok a => Prog.pure (Except.ok a)
    | Except.error e => (f e).run

/-- Of two programs at once the first may run alone, as long as the other has
a call to make. -/
theorem calls_promiseAll {x z : Action Op Res ε α} {y : Action Op Res ε β} {op : Op}
    {next : Except ε (Res op) → Prog Op (fun op => Except ε (Res op)) (Except ε β)}
    (h : Calls performs (s, x.run) (t, z.run)) (hy : y.run = .call op next) :
    Calls performs (s, (promiseAll [] x y).run) (t, (promiseAll [] z y).run) := by
  have hlift : ∀ a b : σ × Prog Op (fun op => Except ε (Res op)) (Except ε α),
      Call performs a b → Call performs (a.1, beside a.2 [] y.run) (b.1, beside b.2 [] y.run) := by
    intro a b hcall
    rw [hy]
    cases hcall with
    | perform op' s t answer next' performed =>
        exact .perform op' s t answer (fun answer => beside (next' answer) [] (.call op next))
          performed
  exact Relation.ReflTransGen.lift
    (fun p : σ × Prog Op (fun op => Except ε (Res op)) (Except ε α) => (p.1, beside p.2 [] y.run))
    hlift _ _ h

end

/-- A state and the programs that run on it. -/
structure Pool (Op : Type) (Ans : Op → Type) (σ α : Type) where
  state : σ
  running : List (Prog Op Ans α)

/-- A program starts, makes a call, or stops. -/
inductive Step (starts : Prog Op Ans α → Prop) (performs : (op : Op) → σ → Ans op → σ → Prop) :
    Pool Op Ans σ α → Pool Op Ans σ α → Prop
  | start (s : σ) (running : List (Prog Op Ans α)) (p : Prog Op Ans α) (started : starts p) :
      Step starts performs ⟨s, running⟩ ⟨s, p :: running⟩
  | call (s t : σ) (before after : List (Prog Op Ans α)) (p q : Prog Op Ans α)
      (called : Call performs (s, p) (t, q)) :
      Step starts performs ⟨s, before ++ p :: after⟩ ⟨t, before ++ q :: after⟩
  | stop (s : σ) (before after : List (Prog Op Ans α)) (p : Prog Op Ans α) :
      Step starts performs ⟨s, before ++ p :: after⟩ ⟨s, before ++ after⟩

section
variable {starts : Prog Op Ans α → Prop} {performs : (op : Op) → σ → Ans op → σ → Prop}
  {P : σ → Prop} {a b : Pool Op Ans σ α}

theorem Step.keeps (hkeep : ∀ op s answer t, performs op s answer t → P s → P t)
    (h : Step starts performs a b) (ha : P a.state) : P b.state := by
  cases h with
  | start s running p started => exact ha
  | call s t before after p q called =>
      cases called with
      | perform op s t answer next performed => exact hkeep op s answer t performed ha
  | stop s before after p => exact ha

/-- What every call keeps holds throughout a run. -/
theorem run_keeps (hkeep : ∀ op s answer t, performs op s answer t → P s → P t)
    (h : Relation.ReflTransGen (Step starts performs) a b) (ha : P a.state) : P b.state := by
  induction h with
  | refl => exact ha
  | tail _ hstep ih => exact hstep.keeps hkeep ih

/-- A program of the pool runs alone. -/
theorem run_calls {s t : σ} {p q : Prog Op Ans α} (h : Calls performs (s, p) (t, q))
    (before after : List (Prog Op Ans α)) : Relation.ReflTransGen (Step starts performs)
      ⟨s, before ++ p :: after⟩ ⟨t, before ++ q :: after⟩ :=
  Relation.ReflTransGen.lift
    (fun x : σ × Prog Op Ans α => Pool.mk x.1 (before ++ x.2 :: after))
    (fun x y hcall => Step.call x.1 y.1 before after x.2 y.2 hcall) _ _ h

end

end CkbDex.Interleaving
