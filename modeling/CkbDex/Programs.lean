import Mathlib.Logic.Relation
import Mathlib.Tactic.SplitIfs

/-!
# Programs that call operations

A program is a tree of calls: it names an operation and continues with the
answer. An action is a program that may fail with an error, as may each of the
operations it calls. An action is evaluated against a handler that answers
every operation from a state.
-/
namespace CkbDex.Programs

inductive Prog (Op : Type) (Ans : Op → Type) (α : Type) where
  | pure (a : α)
  | call (op : Op) (next : Ans op → Prog Op Ans α)

variable {Op : Type} {Ans Res : Op → Type} {ε σ α β : Type}

def Prog.bind : Prog Op Ans α → (α → Prog Op Ans β) → Prog Op Ans β
  | .pure a, f => f a
  | .call op next, f => .call op fun answer => (next answer).bind f

instance : Monad (Prog Op Ans) where
  pure := .pure
  bind := .bind

theorem Prog.bind_pure (p : Prog Op Ans α) : p.bind .pure = p := by
  induction p with
  | pure a => rfl
  | call op next ih => exact congrArg (Prog.call op) (funext ih)

theorem Prog.bind_assoc {γ : Type} (p : Prog Op Ans α) (f : α → Prog Op Ans β) (g : β → Prog Op Ans γ) :
    (p.bind f).bind g = p.bind fun a => (f a).bind g := by
  induction p with
  | pure a => rfl
  | call op next ih => exact congrArg (Prog.call op) (funext ih)

instance : LawfulMonad (Prog Op Ans) :=
  LawfulMonad.mk' (Prog Op Ans) Prog.bind_pure (fun _ _ => rfl) Prog.bind_assoc

/-- A program whose operations answer with a result or an error. -/
abbrev Action (Op : Type) (Res : Op → Type) (ε : Type) (α : Type) :=
  ExceptT ε (Prog Op fun op => Except ε (Res op)) α

def perform (op : Op) : Action Op Res ε (Res op) := ExceptT.mk (.call op .pure)

/-- A result that needs no operation. -/
def require (e : Except ε α) : Action Op Res ε α := ExceptT.mk (.pure e)

/-- An action that is about to make a call, beside another action. -/
def besideCall (op : Op)
    (next : Except ε (Res op) → List Bool → Prog Op (fun op => Except ε (Res op)) (Except ε β) →
      Prog Op (fun op => Except ε (Res op)) (Except ε (α × β)))
    (rest : β → Prog Op (fun op => Except ε (Res op)) (Except ε (α × β))) :
    List Bool → Prog Op (fun op => Except ε (Res op)) (Except ε β) →
      Prog Op (fun op => Except ε (Res op)) (Except ε (α × β))
  | _, .pure (.error e) => .pure (.error e)
  | _, .pure (.ok b) => rest b
  | schedule, .call op' next' =>
      if schedule.headD true then .call op fun answer => next answer schedule.tail (.call op' next')
      else .call op' fun answer => besideCall op next rest schedule.tail (next' answer)

def beside : Prog Op (fun op => Except ε (Res op)) (Except ε α) → List Bool →
    Prog Op (fun op => Except ε (Res op)) (Except ε β) →
    Prog Op (fun op => Except ε (Res op)) (Except ε (α × β))
  | .pure (.error e), _, _ => .pure (.error e)
  | .pure (.ok a), _, y => (Prod.mk a <$> ExceptT.mk y : Action Op Res ε (α × β)).run
  | .call op next, schedule, y =>
      besideCall op (fun answer => beside (next answer))
        (fun b => ((fun a => (a, b)) <$> ExceptT.mk (.call op next) : Action Op Res ε (α × β)).run)
        schedule y

/-- `Promise.all`: both actions run at once, a schedule says which of them makes
the next call, and the first error ends both. -/
def promiseAll (schedule : List Bool) (x : Action Op Res ε α) (y : Action Op Res ε β) :
    Action Op Res ε (α × β) :=
  ExceptT.mk (beside x.run schedule y.run)

/-- The result of an action, kept where a failure would be thrown. -/
def attempt (x : Action Op Res ε α) : Action Op Res ε (Except ε α) := ExceptT.mk (Except.ok <$> x.run)

/-- Both calls are made, in either order, whether or not the first fails. -/
theorem promiseAll_attempts (schedule : List Bool) (op op' : Op) :
    (promiseAll schedule (attempt (perform op)) (attempt (perform op')) :
      Action Op Res ε (Except ε (Res op) × Except ε (Res op'))) =
    if schedule.headD true then do
      let a ← attempt (perform op)
      let b ← attempt (perform op')
      return (a, b)
    else do
      let b ← attempt (perform op')
      let a ← attempt (perform op)
      return (a, b) := by
  unfold promiseAll attempt perform
  change ExceptT.mk (besideCall op _ _ schedule (.call op' _)) = _
  unfold besideCall
  split_ifs <;> rfl

def Prog.eval (handle : (op : Op) → σ → Ans op × σ) : Prog Op Ans α → σ → α × σ
  | .pure a, s => (a, s)
  | .call op next, s => (next (handle op s).1).eval handle (handle op s).2

theorem Prog.eval_bind (handle : (op : Op) → σ → Ans op × σ) (p : Prog Op Ans α)
    (f : α → Prog Op Ans β) (s : σ) :
    (p.bind f).eval handle s = (f (p.eval handle s).1).eval handle (p.eval handle s).2 := by
  induction p generalizing s with
  | pure a => rfl
  | call op next ih => exact ih _ _

section
variable (handle : (op : Op) → σ → Except ε (Res op) × σ)

def eval (x : Action Op Res ε α) (s : σ) : Except ε α × σ := Prog.eval handle x.run s

@[simp] theorem eval_pure (a : α) (s : σ) :
    eval handle (pure a : Action Op Res ε α) s = (.ok a, s) := rfl

@[simp] theorem eval_throw (e : ε) (s : σ) :
    eval handle (throw e : Action Op Res ε α) s = (.error e, s) := rfl

@[simp] theorem eval_require (e : Except ε α) (s : σ) :
    eval handle (require e : Action Op Res ε α) s = (e, s) := rfl

@[simp] theorem eval_perform (op : Op) (s : σ) :
    eval handle (perform op : Action Op Res ε (Res op)) s = handle op s := rfl

theorem eval_bind (x : Action Op Res ε α) (f : α → Action Op Res ε β) (s : σ) :
    eval handle (x >>= f) s = match eval handle x s with
      | (.ok a, t) => eval handle (f a) t
      | (.error e, t) => (.error e, t) := by
  have h := Prog.eval_bind handle x.run (ExceptT.bindCont f) s
  refine h.trans ?_
  change _ = match Prog.eval handle x.run s with
    | (.ok a, t) => Prog.eval handle (f a).run t
    | (.error e, t) => (.error e, t)
  rcases Prog.eval handle x.run s with ⟨_ | _, _⟩ <;> rfl

theorem eval_tryCatch (x : Action Op Res ε α) (f : ε → Action Op Res ε α) (s : σ) :
    eval handle (tryCatch x f) s = match eval handle x s with
      | (.ok a, t) => (.ok a, t)
      | (.error e, t) => eval handle (f e) t := by
  have h := Prog.eval_bind handle x.run
    (fun r => match r with
      | Except.ok a => Prog.pure (Except.ok a)
      | Except.error e => (f e).run) s
  refine h.trans ?_
  change _ = match Prog.eval handle x.run s with
    | (Except.ok a, t) => (Except.ok a, t)
    | (Except.error e, t) => Prog.eval handle (f e).run t
  rcases Prog.eval handle x.run s with ⟨_ | _, _⟩ <;> rfl

theorem eval_promiseAll_require (schedule : List Bool) (a : α) (y : Action Op Res ε β) (s : σ) :
    eval handle (promiseAll schedule (require (.ok a)) y) s = match eval handle y s with
      | (.ok b, t) => (.ok (a, b), t)
      | (.error e, t) => (.error e, t) := by
  have h : eval handle (promiseAll schedule (require (.ok a)) y) s =
      eval handle (y >>= fun b => pure (a, b)) s := rfl
  rw [h, eval_bind]
  rfl

variable {handle}

/-- A sequence succeeds when both parts do. -/
theorem eval_bind_eq_ok {x : Action Op Res ε α} {f : α → Action Op Res ε β} {s t : σ} {b : β} :
    eval handle (x >>= f) s = (.ok b, t) ↔
      ∃ a u, eval handle x s = (.ok a, u) ∧ eval handle (f a) u = (.ok b, t) := by
  rw [eval_bind]
  rcases eval handle x s with ⟨e | a, u⟩
  · simp
  · constructor
    · exact fun h => ⟨a, u, rfl, h⟩
    · rintro ⟨a', u', h, h'⟩
      obtain ⟨rfl, rfl⟩ : a = a' ∧ u = u' := by simpa using h
      exact h'

end

def Prog.Only (allowed : Op → Prop) : Prog Op Ans α → Prop
  | .pure _ => True
  | .call op next => allowed op ∧ ∀ answer, (next answer).Only allowed

theorem Prog.only_bind {allowed : Op → Prop} {p : Prog Op Ans α} {f : α → Prog Op Ans β}
    (hp : p.Only allowed) (hf : ∀ a, (f a).Only allowed) : (p.bind f).Only allowed := by
  induction p with
  | pure a => exact hf a
  | call op next ih => exact ⟨hp.1, fun answer => ih answer (hp.2 answer)⟩

theorem Prog.Only.mono {allowed allowed' : Op → Prop} {p : Prog Op Ans α} (h : p.Only allowed)
    (hmono : ∀ op, allowed op → allowed' op) : p.Only allowed' := by
  induction p with
  | pure a => trivial
  | call op next ih => exact ⟨hmono op h.1, fun answer => ih answer (h.2 answer)⟩

theorem Prog.only_true (p : Prog Op Ans α) : p.Only fun _ => True := by
  induction p with
  | pure a => trivial
  | call op next ih => exact ⟨trivial, ih⟩

/-- Every operation that an action can call, whatever the answers. -/
def Only (allowed : Op → Prop) (x : Action Op Res ε α) : Prop := Prog.Only allowed x.run

section
variable {allowed : Op → Prop}

theorem Only.mono {allowed' : Op → Prop} {x : Action Op Res ε α} (h : Only allowed x)
    (hmono : ∀ op, allowed op → allowed' op) : Only allowed' x :=
  Prog.Only.mono h hmono

@[simp] theorem only_pure (a : α) : Only allowed (pure a : Action Op Res ε α) := trivial

@[simp] theorem only_throw (e : ε) : Only allowed (throw e : Action Op Res ε α) := trivial

@[simp] theorem only_require (e : Except ε α) : Only allowed (require e : Action Op Res ε α) :=
  trivial

@[simp] theorem only_perform {op : Op} :
    Only allowed (perform op : Action Op Res ε (Res op)) ↔ allowed op :=
  ⟨fun h => h.1, fun h => ⟨h, fun _ => trivial⟩⟩

theorem only_bind {x : Action Op Res ε α} {f : α → Action Op Res ε β} (hx : Only allowed x)
    (hf : ∀ a, Only allowed (f a)) : Only allowed (x >>= f) := by
  refine Prog.only_bind hx fun r => ?_
  cases r with
  | ok a => exact hf a
  | error e => trivial

theorem only_bind_ok {a : α} {f : α → Action Op Res ε β} (h : Only allowed (f a)) :
    Only allowed (require (.ok a) >>= f) := h

theorem only_tryCatch {x : Action Op Res ε α} {f : ε → Action Op Res ε α} (hx : Only allowed x)
    (hf : ∀ e, Only allowed (f e)) : Only allowed (tryCatch x f) := by
  refine Prog.only_bind hx fun r => ?_
  cases r with
  | ok a => trivial
  | error e => exact hf e

theorem only_attempt {x : Action Op Res ε α} (hx : Only allowed x) : Only allowed (attempt x) :=
  Prog.only_bind hx fun _ => trivial

theorem only_map {x : Action Op Res ε α} (f : α → β) (hx : Only allowed x) :
    Only allowed (f <$> x) :=
  only_bind hx fun _ => only_pure _

theorem only_promiseAll (schedule : List Bool) {x : Action Op Res ε α} {y : Action Op Res ε β}
    (hx : Only allowed x) (hy : Only allowed y) : Only allowed (promiseAll schedule x y) := by
  have general : ∀ p : Prog Op (fun op => Except ε (Res op)) (Except ε α), p.Only allowed →
      ∀ schedule (q : Prog Op (fun op => Except ε (Res op)) (Except ε β)), q.Only allowed →
        (beside p schedule q).Only allowed := by
    intro p
    induction p with
    | pure r =>
        intro _ schedule q hq
        cases r with
        | error e => trivial
        | ok a => exact only_map (x := ExceptT.mk q) (Prod.mk a) hq
    | call op next ih =>
        intro hp schedule q hq
        induction q generalizing schedule with
        | pure r =>
            cases r with
            | error e => trivial
            | ok b => exact only_map (x := ExceptT.mk (.call op next)) (fun a => (a, b)) hp
        | call op' next' ih' =>
            simp only [beside, besideCall]
            split
            · exact ⟨hp.1, fun answer => ih answer (hp.2 answer) _ _ hq⟩
            · exact ⟨hq.1, fun answer => ih' answer _ (hq.2 answer)⟩
  exact general x.run hx schedule y.run hy

/-- What every allowed operation does to the state, a whole program does. -/
theorem eval_only {handle : (op : Op) → σ → Except ε (Res op) × σ} {R : σ → σ → Prop}
    (hrefl : ∀ s, R s s) (htrans : ∀ {s t u}, R s t → R t u → R s u)
    (hop : ∀ op, allowed op → ∀ s, R s (handle op s).2) {x : Action Op Res ε α}
    (hx : Only allowed x) (s : σ) : R s (eval handle x s).2 := by
  have general : ∀ (p : Prog Op (fun op => Except ε (Res op)) (Except ε α)),
      p.Only allowed → ∀ s, R s (p.eval handle s).2 := by
    intro p
    induction p with
    | pure a => exact fun _ s => hrefl s
    | call op next ih => exact fun h s => htrans (hop op h.1 s) (ih _ (h.2 _) _)
  exact general x.run hx s

end

/-- Some answers make the program return this result. -/
inductive Prog.Returns : Prog Op Ans α → α → Prop
  | pure (a : α) : Returns (.pure a) a
  | call (op : Op) (next : Ans op → Prog Op Ans α) (answer : Ans op) (a : α) (h : Returns (next answer) a) :
      Returns (.call op next) a

theorem Prog.Returns.bind {p : Prog Op Ans α} {f : α → Prog Op Ans β} {a : α} {b : β}
    (hp : p.Returns a) (hf : (f a).Returns b) : (p.bind f).Returns b := by
  induction hp with
  | pure a => exact hf
  | call op next answer a h ih => exact .call op _ answer b (ih hf)

theorem Prog.Only.of_bind {allowed : Op → Prop} {p : Prog Op Ans α} {f : α → Prog Op Ans β}
    (h : (p.bind f).Only allowed) : p.Only allowed := by
  induction p with
  | pure a => trivial
  | call op next ih => exact ⟨h.1, fun answer => ih answer (h.2 answer)⟩

theorem Prog.Only.rest {allowed : Op → Prop} {p : Prog Op Ans α} {f : α → Prog Op Ans β} {a : α}
    (h : (p.bind f).Only allowed) (hp : p.Returns a) : (f a).Only allowed := by
  induction hp with
  | pure a => exact h
  | call op next answer a _ ih => exact ih (h.2 answer)

/-- Some answers make the action end this way. -/
def Returns (x : Action Op Res ε α) (r : Except ε α) : Prop := Prog.Returns x.run r

section
variable {allowed : Op → Prop} {x : Action Op Res ε α} {y : Action Op Res ε β}
  {f : α → Action Op Res ε β} {a : α} {b : β} {r : Except ε β}

theorem returns_require (e : Except ε α) : Returns (require e : Action Op Res ε α) e := .pure e

theorem returns_perform (op : Op) (answer : Except ε (Res op)) :
    Returns (perform op : Action Op Res ε (Res op)) answer := .call op _ answer answer (.pure answer)

theorem returns_bind (hx : Returns x (.ok a)) (hf : Returns (f a) r) : Returns (x >>= f) r :=
  Prog.Returns.bind hx hf

theorem Only.of_bind (h : Only allowed (x >>= f)) : Only allowed x := Prog.Only.of_bind h

theorem Only.rest (h : Only allowed (x >>= f)) (hx : Returns x (.ok a)) : Only allowed (f a) :=
  Prog.Only.rest (f := ExceptT.bindCont f) (a := .ok a) h hx

theorem Only.of_tryCatch {g : ε → Action Op Res ε α} (h : Only allowed (tryCatch x g)) : Only allowed x :=
  Prog.Only.of_bind h

theorem returns_promiseAll (schedule : List Bool) (hx : Returns x (.ok a)) (hy : Returns y (.ok b)) :
    Returns (promiseAll schedule x y) (.ok (a, b)) := by
  have general : ∀ {p : Prog Op (fun op => Except ε (Res op)) (Except ε α)} {r : Except ε α},
      p.Returns r → r = .ok a → ∀ schedule {q : Prog Op (fun op => Except ε (Res op)) (Except ε β)}
        {r' : Except ε β}, q.Returns r' → r' = .ok b → (beside p schedule q).Returns (.ok (a, b)) := by
    intro p r hp
    induction hp with
    | pure r =>
        rintro rfl schedule q r' hq rfl
        exact Prog.Returns.bind hq (.pure _)
    | call op next answer r hnext ih =>
        rintro rfl schedule q r' hq
        induction hq generalizing schedule with
        | pure r' =>
            rintro rfl
            have hx := @Prog.Returns.call Op (fun op => Except ε (Res op)) _ op next answer _ hnext
            exact @returns_bind Op Res ε α (α × β) (ExceptT.mk (.call op next)) _ a _ hx (.pure _)
        | call op' next' answer' r' hnext' ih' =>
            rintro rfl
            simp only [beside, besideCall]
            split
            · exact .call op _ answer _ (ih rfl _ (.call op' next' answer' _ hnext') rfl)
            · have hrest := ih' schedule.tail rfl
              simp only [beside] at hrest
              exact .call op' _ answer' _ hrest
  exact general hx rfl schedule hy rfl

end

end CkbDex.Programs
