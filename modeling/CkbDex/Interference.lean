import CkbDex.Interleaving

/-!
# Programs under interference

One program runs on a state that drifts between its calls. A program is safe
for a postcondition when each of its calls, made from wherever the state has
drifted to, keeps a guarantee, and the program ends in the postcondition. What
the guarantee keeps holds in every run in which programs start, stop halfway
and start again. Two programs at once keep what each keeps, as long as neither
misses its result.
-/
namespace CkbDex.Interference
open Programs

variable {Op : Type} {Ans Res : Op → Type} {ε σ α β : Type}

/-- How the state drifts, what a call can answer and do, and what a call must
guarantee of the state before it and the state after it. -/
structure Setting (Op : Type) (Ans : Op → Type) (σ : Type) where
  drifts : σ → σ → Prop
  performs : (op : Op) → σ → Ans op → σ → Prop
  guarantee : σ → σ → Prop
  refl : ∀ s, guarantee s s
  trans : ∀ {s t u}, guarantee s t → guarantee t u → guarantee s u

def SafeProg (S : Setting Op Ans σ) : Prog Op Ans α → (α → σ → Prop) → σ → Prop
  | .pure a, post, s => post a s
  | .call op next, post, s => ∀ t answer u, S.drifts s t → S.performs op t answer u →
      S.guarantee s u ∧ SafeProg S (next answer) post u

theorem SafeProg.mono {S : Setting Op Ans σ} {p : Prog Op Ans α} {post post' : α → σ → Prop} {s : σ}
    (h : SafeProg S p post s) (hmono : ∀ a u, S.guarantee s u → post a u → post' a u) :
    SafeProg S p post' s := by
  induction p generalizing s with
  | pure a => exact hmono a s (S.refl s) h
  | call op next ih =>
      intro t answer u hdrift hcall
      obtain ⟨hkept, hrest⟩ := h t answer u hdrift hcall
      exact ⟨hkept, ih answer hrest fun a w hw => hmono a w (S.trans hkept hw)⟩

theorem safeProg_bind {S : Setting Op Ans σ} {p : Prog Op Ans α} {f : α → Prog Op Ans β}
    {post : β → σ → Prop} {s : σ} :
    SafeProg S (p.bind f) post s ↔ SafeProg S p (fun a t => SafeProg S (f a) post t) s := by
  induction p generalizing s with
  | pure a => rfl
  | call op next ih =>
      exact forall_congr' fun t => forall_congr' fun answer => forall_congr' fun u =>
        imp_congr_right fun _ => imp_congr_right fun _ => and_congr_right fun _ => ih answer

section
variable {S : Setting Op (fun op => Except ε (Res op)) σ} {s : σ}

/-- `SafeProg` for an action, by its result. -/
def Safe (S : Setting Op (fun op => Except ε (Res op)) σ) (x : Action Op Res ε α)
    (post : Except ε α → σ → Prop) (s : σ) : Prop :=
  SafeProg S x.run post s

theorem Safe.mono {x : Action Op Res ε α} {post post' : Except ε α → σ → Prop} (h : Safe S x post s)
    (hmono : ∀ r u, S.guarantee s u → post r u → post' r u) : Safe S x post' s :=
  SafeProg.mono h hmono

@[simp] theorem safe_pure {a : α} {post : Except ε α → σ → Prop} :
    Safe S (pure a : Action Op Res ε α) post s ↔ post (.ok a) s := Iff.rfl

@[simp] theorem safe_throw {e : ε} {post : Except ε α → σ → Prop} :
    Safe S (throw e : Action Op Res ε α) post s ↔ post (.error e) s := Iff.rfl

@[simp] theorem safe_require {r : Except ε α} {post : Except ε α → σ → Prop} :
    Safe S (require r : Action Op Res ε α) post s ↔ post r s := Iff.rfl

theorem safe_perform {op : Op} {post : Except ε (Res op) → σ → Prop} :
    Safe S (perform op : Action Op Res ε (Res op)) post s ↔ ∀ t answer u, S.drifts s t →
      S.performs op t answer u → S.guarantee s u ∧ post answer u := Iff.rfl

/-- What is left to prove after a first part. -/
def proceeds (S : Setting Op (fun op => Except ε (Res op)) σ) (f : α → Action Op Res ε β)
    (post : Except ε β → σ → Prop) : Except ε α → σ → Prop
  | .ok a, t => Safe S (f a) post t
  | .error e, t => post (.error e) t

theorem safe_bind {x : Action Op Res ε α} {f : α → Action Op Res ε β} {post : Except ε β → σ → Prop} :
    Safe S (x >>= f) post s ↔ Safe S x (proceeds S f post) s := by
  refine Iff.trans (safeProg_bind (p := x.run) (f := ExceptT.bindCont f)) ?_
  have hends : ∀ r t, SafeProg S (ExceptT.bindCont f r) post t ↔ proceeds S f post r t := by
    intro r t
    cases r <;> rfl
  exact ⟨fun h => SafeProg.mono h fun r t _ => (hends r t).mp,
    fun h => SafeProg.mono h fun r t _ => (hends r t).mpr⟩

theorem safe_tryCatch {x : Action Op Res ε α} {f : ε → Action Op Res ε α}
    {post : Except ε α → σ → Prop} :
    Safe S (tryCatch x f) post s ↔ Safe S x (fun r t => match r with
      | .ok a => post (.ok a) t
      | .error e => Safe S (f e) post t) s := by
  refine Iff.trans (safeProg_bind (p := x.run) (f := fun r => match r with
    | Except.ok a => Prog.pure (Except.ok a)
    | Except.error e => (f e).run)) ?_
  constructor <;> intro h <;> refine SafeProg.mono h fun r t _ hr => ?_ <;> cases r <;> exact hr

/-- A program whose calls all keep the guarantee is safe. -/
theorem safe_of_only {allowed : Op → Prop} {x : Action Op Res ε α} (hx : Only allowed x)
    (hcall : ∀ op, allowed op → ∀ s t answer u, S.drifts s t → S.performs op t answer u →
      S.guarantee s u) (s : σ) : Safe S x (fun _ _ => True) s := by
  have general : ∀ p : Prog Op (fun op => Except ε (Res op)) (Except ε α), p.Only allowed → ∀ s,
      SafeProg S p (fun _ _ => True) s := by
    intro p
    induction p with
    | pure r => exact fun _ _ => trivial
    | call op next ih =>
        intro hp s t answer u hdrift hperformed
        exact ⟨hcall op hp.1 s t answer u hdrift hperformed, ih answer (hp.2 answer) u⟩
  exact general x.run hx s

end

/-- The state drifts, or the program starts, makes a call or is stopped. -/
inductive Step (drifts : σ → σ → Prop) (performs : (op : Op) → σ → Ans op → σ → Prop)
    (starts : σ → Prog Op Ans α → σ → Prop) :
    σ × Option (Prog Op Ans α) → σ × Option (Prog Op Ans α) → Prop
  | drift (s t : σ) (p : Option (Prog Op Ans α)) (drifted : drifts s t) :
      Step drifts performs starts (s, p) (t, p)
  | start (s t : σ) (p : Option (Prog Op Ans α)) (q : Prog Op Ans α) (started : starts s q t) :
      Step drifts performs starts (s, p) (t, some q)
  | call (s t : σ) (op : Op) (next : Ans op → Prog Op Ans α) (answer : Ans op)
      (performed : performs op s answer t) :
      Step drifts performs starts (s, some (.call op next)) (t, some (next answer))
  | stop (s : σ) (p : Option (Prog Op Ans α)) : Step drifts performs starts (s, p) (s, none)

abbrev Run (drifts : σ → σ → Prop) (performs : (op : Op) → σ → Ans op → σ → Prop)
    (starts : σ → Prog Op Ans α → σ → Prop) :
    σ × Option (Prog Op Ans α) → σ × Option (Prog Op Ans α) → Prop :=
  Relation.ReflTransGen (Step drifts performs starts)

/-- A program that is left alone. -/
theorem run_of_calls {drifts : σ → σ → Prop} {performs : (op : Op) → σ → Ans op → σ → Prop}
    {starts : σ → Prog Op Ans α → σ → Prop} {s t : σ} {p q : Prog Op Ans α}
    (h : Interleaving.Calls performs (s, p) (t, q)) : Run drifts performs starts (s, some p) (t, some q) := by
  have hlift : ∀ a b : σ × Prog Op Ans α, Interleaving.Call performs a b →
      Step drifts performs starts (a.1, some a.2) (b.1, some b.2) := by
    intro a b hcall
    cases hcall with
    | perform op s t answer next performed => exact .call s t op next answer performed
  exact Relation.ReflTransGen.lift (fun x : σ × Prog Op Ans α => (x.1, some x.2)) hlift _ _ h

section
variable {S : Setting Op Ans σ} {starts : σ → Prog Op Ans α → σ → Prop} {I : σ → Prop}
  {a b : σ × Option (Prog Op Ans α)}

/-- What drift, guarantee and the start of a safe program keep holds throughout
a run. -/
theorem run_safe (hrefl : ∀ s, S.drifts s s) (htrans : ∀ {s t u}, S.drifts s t → S.drifts t u → S.drifts s u)
    (hdrift : ∀ s t, S.drifts s t → I s → I t) (hkept : ∀ s t, S.guarantee s t → I s → I t)
    (hstart : ∀ s p t, starts s p t → I s → I t ∧ SafeProg S p (fun _ _ => True) t)
    (h : Run S.drifts S.performs starts a b) (ha : I a.1) (hnone : a.2 = none) : I b.1 := by
  have hall : I b.1 ∧ ∀ p, b.2 = some p → ∃ s, I s ∧ S.drifts s b.1 ∧
      SafeProg S p (fun _ _ => True) s := by
    induction h with
    | refl =>
        refine ⟨ha, fun p hp => ?_⟩
        rw [hnone] at hp
        cases hp
    | tail _ hstep ih =>
        obtain ⟨hi, hsafe⟩ := ih
        cases hstep with
        | drift s t p drifted =>
            refine ⟨hdrift s t drifted hi, fun q hq => ?_⟩
            obtain ⟨u, hu, hus, hq⟩ := hsafe q hq
            exact ⟨u, hu, htrans hus drifted, hq⟩
        | start s t p q started =>
            obtain ⟨ht, hq⟩ := hstart s q t started hi
            refine ⟨ht, fun q' hq' => ?_⟩
            obtain rfl := Option.some_inj.mp hq'
            exact ⟨t, ht, hrefl t, hq⟩
        | call s t op next answer performed =>
            obtain ⟨u, hu, hus, hcall⟩ := hsafe _ rfl
            obtain ⟨hguarantee, hrest⟩ := hcall s answer t hus performed
            have ht := hkept u t hguarantee hu
            refine ⟨ht, fun q hq => ?_⟩
            obtain rfl := Option.some_inj.mp hq
            exact ⟨t, ht, hrefl t, hrest⟩
        | stop s p => exact ⟨hi, nofun⟩
  exact hall.1

end

/-- Whatever the answers, the result of a program is one of these. -/
def Ends (P : α → Prop) : Prog Op Ans α → Prop
  | .pure a => P a
  | .call _ next => ∀ answer, Ends P (next answer)

theorem Ends.mono {P P' : α → Prop} {p : Prog Op Ans α} (h : Ends P p) (hmono : ∀ a, P a → P' a) :
    Ends P' p := by
  induction p with
  | pure a => exact hmono a h
  | call op next ih => exact fun answer => ih answer (h answer)

theorem ends_bind {P : β → Prop} {p : Prog Op Ans α} {f : α → Prog Op Ans β} :
    Ends P (p.bind f) ↔ Ends (fun a => Ends P (f a)) p := by
  induction p with
  | pure a => rfl
  | call op next ih => exact forall_congr' fun answer => ih answer

theorem ends_true (p : Prog Op Ans α) : Ends (fun _ => True) p := by
  induction p with
  | pure a => trivial
  | call op next ih => exact ih

section
variable {P : α → Prop} {P' : β → Prop}

/-- An action never succeeds with such a result. -/
abbrev Misses (P : α → Prop) (p : Prog Op (fun op => Except ε (Res op)) (Except ε α)) : Prop :=
  Ends (fun r => ∀ a, r = .ok a → ¬P a) p

theorem misses_map {f : α → β} {p : Prog Op (fun op => Except ε (Res op)) (Except ε α)}
    (h : Misses (fun a => P' (f a)) p) : Misses P' (f <$> ExceptT.mk p : Action Op Res ε β).run := by
  refine (ends_bind (f := ExceptT.bindCont (pure ∘ f))).mpr (Ends.mono h fun r hr => ?_)
  cases r with
  | ok a =>
      intro b hb
      obtain rfl := Except.ok.inj hb
      exact hr a rfl
  | error e => exact fun b hb => by cases hb

/-- What the first of two actions misses, both together miss. -/
theorem misses_beside_left {p : Prog Op (fun op => Except ε (Res op)) (Except ε α)} (h : Misses P p)
    (schedule : List Bool) (q : Prog Op (fun op => Except ε (Res op)) (Except ε β)) :
    Misses (fun r : α × β => P r.1) (beside p schedule q) := by
  induction p generalizing schedule q with
  | pure r =>
      cases r with
      | error e => exact fun a ha => by cases ha
      | ok a => exact misses_map (Ends.mono (ends_true q) fun _ _ _ _ => h a rfl)
  | call op next ih =>
      induction q generalizing schedule with
      | pure r =>
          cases r with
          | error e => exact fun a ha => by cases ha
          | ok b => exact misses_map (p := .call op next) h
      | call op' next' ih' =>
          simp only [beside, besideCall]
          split
          · exact fun answer => ih answer (h answer) _ _
          · exact fun answer => ih' answer _

theorem misses_beside_right {q : Prog Op (fun op => Except ε (Res op)) (Except ε β)} (h : Misses P' q)
    (schedule : List Bool) (p : Prog Op (fun op => Except ε (Res op)) (Except ε α)) :
    Misses (fun r : α × β => P' r.2) (beside p schedule q) := by
  induction p generalizing schedule q with
  | pure r =>
      cases r with
      | error e => exact fun a ha => by cases ha
      | ok a => exact misses_map h
  | call op next ih =>
      induction q generalizing schedule with
      | pure r =>
          cases r with
          | error e => exact fun a ha => by cases ha
          | ok b =>
              exact misses_map (p := .call op next) (Ends.mono (ends_true _) fun _ _ _ _ => h b rfl)
      | call op' next' ih' =>
          simp only [beside, besideCall]
          split
          · exact fun answer => ih answer h _
          · exact fun answer => ih' answer (h answer) _

end

/-- No call breaks the guarantee. -/
def Free (S : Setting Op Ans σ) : Prop := ∀ s t, S.guarantee s t

theorem safe_of_ends {S : Setting Op Ans σ} (hfree : Free S) {P : α → Prop} {p : Prog Op Ans α}
    (h : Ends P p) (s : σ) : SafeProg S p (fun a _ => P a) s := by
  induction p generalizing s with
  | pure a => exact h
  | call op next ih => exact fun t answer u _ _ => ⟨hfree s u, ih answer (h answer) u⟩

section
variable {S : Setting Op (fun op => Except ε (Res op)) σ} {Q : σ → Prop} {P : α → Prop}
  {P' : β → Prop}

/-- The calls of a program keep a condition, up to a call after which it misses
its result. -/
inductive Keeps (S : Setting Op (fun op => Except ε (Res op)) σ) (Q : σ → Prop) (P : α → Prop) :
    Prog Op (fun op => Except ε (Res op)) (Except ε α) → Prop
  | misses (p : Prog Op (fun op => Except ε (Res op)) (Except ε α)) (missed : Misses P p) : Keeps S Q P p
  | ended (r : Except ε α) : Keeps S Q P (.pure r)
  | call (op : Op) (next : Except ε (Res op) → Prog Op (fun op => Except ε (Res op)) (Except ε α))
      (kept : ∀ t answer u, S.performs op t answer u → Q t → Q u)
      (rest : ∀ answer, Keeps S Q P (next answer)) : Keeps S Q P (.call op next)

theorem Keeps.safe (hfree : Free S) (hdrift : ∀ s t, S.drifts s t → Q s → Q t)
    {p : Prog Op (fun op => Except ε (Res op)) (Except ε α)} (h : Keeps S Q P p) {s : σ} (hs : Q s) :
    SafeProg S p (fun r u => ∀ a, r = .ok a → P a → Q u) s := by
  induction h generalizing s with
  | misses p missed =>
      exact SafeProg.mono (safe_of_ends hfree missed s) fun r u _ hr a ha hp => absurd hp (hr a ha)
  | ended r => exact fun _ _ _ => hs
  | call op next kept rest ih =>
      exact fun t answer u hst hcall =>
        ⟨hfree s u, ih answer (kept t answer u hcall (hdrift s t hst hs))⟩

theorem Keeps.map (hfree : Free S) (hdrift : ∀ s t, S.drifts s t → Q s → Q t) (f : α → β)
    (P' : β → Prop) {p : Prog Op (fun op => Except ε (Res op)) (Except ε α)} (h : Keeps S Q P p)
    (hf : ∀ a, P' (f a) → P a) {s : σ} (hs : Q s) :
    SafeProg S (f <$> ExceptT.mk p : Action Op Res ε β).run (fun r u => ∀ b, r = .ok b → P' b → Q u) s := by
  refine (safeProg_bind (f := ExceptT.bindCont (pure ∘ f))).mpr
    (SafeProg.mono (h.safe hfree hdrift hs) fun r u _ hr => ?_)
  cases r with
  | ok a =>
      intro b hb hp
      obtain rfl := Except.ok.inj hb
      exact hr a rfl (hf a hp)
  | error e => exact fun b hb => by cases hb

/-- Two actions at once keep what each of them keeps, unless one of them misses
its result. -/
theorem Keeps.beside (hfree : Free S) (hdrift : ∀ s t, S.drifts s t → Q s → Q t)
    {p : Prog Op (fun op => Except ε (Res op)) (Except ε α)}
    {q : Prog Op (fun op => Except ε (Res op)) (Except ε β)} (hp : Keeps S Q P p) (hq : Keeps S Q P' q)
    (schedule : List Bool) {s : σ} (hs : Q s) : SafeProg S (Programs.beside p schedule q)
      (fun r u => ∀ c, r = .ok c → P c.1 → P' c.2 → Q u) s := by
  induction hp generalizing schedule q s with
  | misses p missed =>
      exact SafeProg.mono (safe_of_ends hfree (misses_beside_left missed schedule q) s)
        fun r u _ hr c hc hleft => absurd hleft (hr c hc)
  | ended r =>
      cases r with
      | error e => exact fun c hc => by cases hc
      | ok a =>
          exact SafeProg.mono (hq.map hfree hdrift (Prod.mk a) (fun c => P' c.2)
            (fun _ h => h) hs) fun r u _ hr c hc _ hright => hr c hc hright
  | call op next kept rest ih =>
      induction hq generalizing schedule s with
      | misses q missed =>
          exact SafeProg.mono (safe_of_ends hfree (misses_beside_right missed schedule _) s)
            fun r u _ hr c hc _ hright => absurd hright (hr c hc)
      | ended r =>
          cases r with
          | error e => exact fun c hc => by cases hc
          | ok b =>
              exact SafeProg.mono ((Keeps.call op next kept rest).map hfree hdrift
                (fun a => (a, b)) (fun c => P c.1) (fun _ h => h) hs)
                fun r u _ hr c hc hleft _ => hr c hc hleft
      | call op' next' kept' rest' ih' =>
          simp only [Programs.beside, besideCall]
          split
          · exact fun t answer u hst hcall => ⟨hfree s u, ih answer
              (Keeps.call op' next' kept' rest') _ (kept t answer u hcall (hdrift s t hst hs))⟩
          · exact fun t answer u hst hcall => ⟨hfree s u,
              ih' answer _ (kept' t answer u hcall (hdrift s t hst hs))⟩

/-- What every call of a program keeps holds at its end. -/
theorem safe_invariant {allowed : Op → Prop} (hfree : Free S) (hdrift : ∀ s t, S.drifts s t → Q s → Q t)
    {x : Action Op Res ε α} (hx : Only allowed x)
    (hcall : ∀ op, allowed op → ∀ t answer u, S.performs op t answer u → Q t → Q u) {s : σ} (hs : Q s) :
    Safe S x (fun _ u => Q u) s := by
  have general : ∀ p : Prog Op (fun op => Except ε (Res op)) (Except ε α), p.Only allowed → ∀ s, Q s →
      SafeProg S p (fun _ u => Q u) s := by
    intro p
    induction p with
    | pure r => exact fun _ _ hs => hs
    | call op next ih =>
        exact fun hp s hs t answer u hst hperformed => ⟨hfree s u, ih answer (hp.2 answer) u
          (hcall op hp.1 t answer u hperformed (hdrift s t hst hs))⟩
  exact general x.run hx s hs

end

section
variable {S : Setting Op Ans σ} {post : α → σ → Prop}

/-- A safe program that has run to its end has its postcondition, but for drift. -/
theorem run_ends (hrefl : ∀ s, S.drifts s s)
    (htrans : ∀ {s t u}, S.drifts s t → S.drifts t u → S.drifts s u) {s t : σ} {p : Prog Op Ans α}
    {a : α} (h : SafeProg S p post s)
    (hrun : Run S.drifts S.performs (fun _ _ _ => False) (s, some p) (t, some (.pure a))) :
    ∃ u, post a u ∧ S.drifts u t := by
  have hall : ∀ b, Run S.drifts S.performs (fun _ _ _ => False) (s, some p) b →
      ∀ q, b.2 = some q → ∃ u, S.drifts u b.1 ∧ SafeProg S q post u := by
    intro b hb
    induction hb with
    | refl =>
        intro q hq
        obtain rfl := Option.some_inj.mp hq
        exact ⟨s, hrefl s, h⟩
    | tail _ hstep ih =>
        cases hstep with
        | drift s t p drifted =>
            intro q hq
            obtain ⟨u, hus, hsafe⟩ := ih q hq
            exact ⟨u, htrans hus drifted, hsafe⟩
        | start s t p q started => exact started.elim
        | call s t op next answer performed =>
            intro q hq
            obtain rfl := Option.some_inj.mp hq
            obtain ⟨u, hus, hcall⟩ := ih _ rfl
            exact ⟨t, hrefl t, (hcall s answer t hus performed).2⟩
        | stop s p => exact fun q hq => by cases hq
  obtain ⟨u, hut, hpost⟩ := hall _ hrun _ rfl
  exact ⟨u, hpost, hut⟩

/-- A safe program that is left alone ends in its postcondition. -/
theorem eval_safe (hrefl : ∀ s, S.drifts s s) (handle : (op : Op) → σ → Ans op × σ)
    (hhandle : ∀ op s, S.performs op s (handle op s).1 (handle op s).2) {p : Prog Op Ans α} {s : σ}
    (h : SafeProg S p post s) : post (p.eval handle s).1 (p.eval handle s).2 := by
  induction p generalizing s with
  | pure a => exact h
  | call op next ih => exact ih _ (h s _ _ (hrefl s) (hhandle op s)).2

end

end CkbDex.Interference
