import CkbDex.Interleaving
import Mathlib.Data.List.Nodup
import Mathlib.Tactic.Tauto

/-!
# Sessions

Programs that run at once on one state, each with a note of what it has done so
far. A note is kept beside a program and never decides what happens. A program
that is stopped just makes no further call, and its note stays. An invariant
may relate the state to all notes at once; it is enough that every call keeps
it, with what the program's own note says about the call.
-/
namespace CkbDex.Sessions
open Programs

variable {Op : Type} {Ans Res : Op → Type} {ε σ Note α β : Type}

structure Session (Op : Type) (Ans : Op → Type) (Note α : Type) where
  note : Note
  program : Prog Op Ans α

/-- A state and the sessions on it. -/
structure Room (Op : Type) (Ans : Op → Type) (Note σ α : Type) where
  state : σ
  sessions : List (Session Op Ans Note α)

def Room.notes (room : Room Op Ans Note σ α) : List Note := room.sessions.map Session.note

/-- A session starts, or makes its next call and notes the answer. -/
inductive Step (starts : Note → Prog Op Ans α → Prop) (record : Note → (op : Op) → Ans op → Note)
    (performs : (op : Op) → σ → Ans op → σ → Prop) :
    Room Op Ans Note σ α → Room Op Ans Note σ α → Prop
  | start (s : σ) (sessions : List (Session Op Ans Note α)) (note : Note) (p : Prog Op Ans α)
      (started : starts note p) :
      Step starts record performs ⟨s, sessions⟩ ⟨s, ⟨note, p⟩ :: sessions⟩
  | call (s t : σ) (before after : List (Session Op Ans Note α)) (note : Note) (op : Op)
      (next : Ans op → Prog Op Ans α) (answer : Ans op) (performed : performs op s answer t) :
      Step starts record performs ⟨s, before ++ ⟨note, .call op next⟩ :: after⟩
        ⟨t, before ++ ⟨record note op answer, next answer⟩ :: after⟩

abbrev Run (starts : Note → Prog Op Ans α → Prop) (record : Note → (op : Op) → Ans op → Note)
    (performs : (op : Op) → σ → Ans op → σ → Prop) :
    Room Op Ans Note σ α → Room Op Ans Note σ α → Prop :=
  Relation.ReflTransGen (Step starts record performs)

/-- Every call of a program is one that its note allows, whatever the answers,
and it ends as `ends` says. -/
def Keeps (record : Note → (op : Op) → Ans op → Note) (allowed : Note → Op → Prop)
    (ends : Note → α → Prop) : Note → Prog Op Ans α → Prop
  | note, .pure a => ends note a
  | note, .call op next =>
      allowed note op ∧ ∀ answer, Keeps record allowed ends (record note op answer) (next answer)

theorem Keeps.mono {record : Note → (op : Op) → Ans op → Note} {allowed : Note → Op → Prop}
    {ends ends' : Note → α → Prop} {note : Note} {p : Prog Op Ans α}
    (h : Keeps record allowed ends note p) (hmono : ∀ note a, ends note a → ends' note a) :
    Keeps record allowed ends' note p := by
  induction p generalizing note with
  | pure a => exact hmono note a h
  | call op next ih => exact ⟨h.1, fun answer => ih answer (h.2 answer)⟩

theorem Keeps.of_eq {record : Note → (op : Op) → Ans op → Note} {allowed : Note → Op → Prop}
    {ends : Note → α → Prop} {note note' : Note} {p : Prog Op Ans α}
    (h : Keeps record allowed ends note p) (hsame : note = note') :
    Keeps record allowed ends note' p := hsame ▸ h

theorem keeps_prog_bind {record : Note → (op : Op) → Ans op → Note} {allowed : Note → Op → Prop}
    {ends : Note → β → Prop} {p : Prog Op Ans α} {f : α → Prog Op Ans β} {note : Note} :
    Keeps record allowed ends note (p.bind f) ↔
      Keeps record allowed (fun note a => Keeps record allowed ends note (f a)) note p := by
  induction p generalizing note with
  | pure a => rfl
  | call op next ih => exact and_congr_right fun _ => forall_congr' fun answer => ih answer

section
variable {record : Note → (op : Op) → Except ε (Res op) → Note} {allowed : Note → Op → Prop}

/-- `Keeps` for an action, by its result. -/
def Follows (record : Note → (op : Op) → Except ε (Res op) → Note) (allowed : Note → Op → Prop)
    (ends : Note → Except ε α → Prop) (note : Note) (x : Action Op Res ε α) : Prop :=
  Keeps record allowed ends note x.run

variable {ends : Note → Except ε α → Prop} {note : Note}

theorem Follows.mono {ends' : Note → Except ε α → Prop} {x : Action Op Res ε α}
    (h : Follows record allowed ends note x) (hmono : ∀ note r, ends note r → ends' note r) :
    Follows record allowed ends' note x :=
  Keeps.mono h hmono

@[simp] theorem follows_pure {a : α} :
    Follows record allowed ends note (pure a : Action Op Res ε α) ↔ ends note (.ok a) := Iff.rfl

@[simp] theorem follows_throw {e : ε} :
    Follows record allowed ends note (throw e : Action Op Res ε α) ↔ ends note (.error e) := Iff.rfl

@[simp] theorem follows_require {r : Except ε α} :
    Follows record allowed ends note (require r : Action Op Res ε α) ↔ ends note r := Iff.rfl

@[simp] theorem follows_perform {op : Op} {ends : Note → Except ε (Res op) → Prop} :
    Follows record allowed ends note (perform op : Action Op Res ε (Res op)) ↔
      allowed note op ∧ ∀ answer, ends (record note op answer) answer := Iff.rfl

/-- What is left to follow after a first part. -/
def continues (record : Note → (op : Op) → Except ε (Res op) → Note) (allowed : Note → Op → Prop)
    (ends : Note → Except ε β → Prop) (f : α → Action Op Res ε β) (note : Note) :
    Except ε α → Prop
  | .ok a => Follows record allowed ends note (f a)
  | .error e => ends note (.error e)

theorem follows_bind {x : Action Op Res ε α} {f : α → Action Op Res ε β}
    {ends : Note → Except ε β → Prop} :
    Follows record allowed ends note (x >>= f) ↔
      Follows record allowed (continues record allowed ends f) note x := by
  refine Iff.trans (keeps_prog_bind (p := x.run) (f := ExceptT.bindCont f)) ?_
  have hends : ∀ note r, Keeps record allowed ends note (ExceptT.bindCont f r) ↔
      continues record allowed ends f note r := by
    intro note r
    cases r <;> rfl
  exact ⟨fun h => h.mono fun note r => (hends note r).mp, fun h => h.mono fun note r => (hends note r).mpr⟩

theorem follows_tryCatch {x : Action Op Res ε α} {f : ε → Action Op Res ε α} :
    Follows record allowed ends note (tryCatch x f) ↔
      Follows record allowed (fun note r => match r with
        | .ok a => ends note (.ok a)
        | .error e => Follows record allowed ends note (f e)) note x := by
  refine Iff.trans (keeps_prog_bind (p := x.run) (f := fun r => match r with
    | Except.ok a => Prog.pure (Except.ok a)
    | Except.error e => (f e).run)) ?_
  constructor <;> intro h <;> refine Keeps.mono h fun note r hr => ?_ <;> cases r <;> exact hr

theorem follows_attempt {x : Action Op Res ε α} {ends : Note → Except ε (Except ε α) → Prop} :
    Follows record allowed ends note (attempt x) ↔
      Follows record allowed (fun note r => ends note (.ok r)) note x :=
  keeps_prog_bind

/-- Calls that keep what is known of the note. -/
theorem follows_keeping {p : Op → Prop} {K : Note → Prop} {x : Action Op Res ε α} (hx : Only p x)
    (hp : ∀ note op, K note → p op → allowed note op ∧ ∀ answer, K (record note op answer)) (hnote : K note) :
    Follows record allowed (fun note' _ => K note') note x := by
  have general : ∀ (q : Prog Op (fun op => Except ε (Res op)) (Except ε α)) (note : Note), q.Only p → K note →
      Keeps record allowed (fun note' _ => K note') note q := by
    intro q
    induction q with
    | pure r =>
        intro note _ hnote
        exact hnote
    | call op next ih =>
        intro note hq hnote
        obtain ⟨hallowed, hkept⟩ := hp note op hnote hq.1
        exact ⟨hallowed, fun answer => ih answer _ (hq.2 answer) (hkept answer)⟩
  exact general x.run note hx hnote

/-- Calls that do not change the note. -/
theorem follows_of_only {p : Op → Prop} {x : Action Op Res ε α} (hx : Only p x)
    (hp : ∀ op, p op → allowed note op ∧ ∀ answer, record note op answer = note) :
    Follows record allowed (fun note' _ => note' = note) note x := by
  have general : ∀ q : Prog Op (fun op => Except ε (Res op)) (Except ε α), q.Only p →
      Keeps record allowed (fun note' _ => note' = note) note q := by
    intro q
    induction q with
    | pure r => exact fun _ => rfl
    | call op next ih =>
        intro hq
        obtain ⟨hallowed, hsame⟩ := hp op hq.1
        refine ⟨hallowed, fun answer => ?_⟩
        rw [hsame answer]
        exact ih answer (hq.2 answer)
  exact general x.run hx

end

section
variable {starts : Note → Prog Op Ans α → Prop} {record : Note → (op : Op) → Ans op → Note}
  {performs : (op : Op) → σ → Ans op → σ → Prop} {allowed : Note → Op → Prop}
  {a b : Room Op Ans Note σ α}

/-- Every session keeps to its note. -/
def AllKeep (record : Note → (op : Op) → Ans op → Note) (allowed : Note → Op → Prop)
    (room : Room Op Ans Note σ α) : Prop :=
  ∀ session ∈ room.sessions, Keeps record allowed (fun _ _ => True) session.note session.program

/-- Every session keeps to its note and ends as `ends` says. -/
def Keeping (record : Note → (op : Op) → Ans op → Note) (allowed : Note → Op → Prop)
    (ends : Note → α → Prop) (room : Room Op Ans Note σ α) : Prop :=
  ∀ session ∈ room.sessions, Keeps record allowed ends session.note session.program

theorem Step.keeping {ends : Note → α → Prop}
    (hkeeps : ∀ note p, starts note p → Keeps record allowed ends note p)
    (h : Step starts record performs a b) (ha : Keeping record allowed ends a) :
    Keeping record allowed ends b := by
  cases h with
  | start s sessions note p started =>
      intro session hmem
      rcases List.mem_cons.mp hmem with rfl | hmem
      · exact hkeeps note p started
      · exact ha session hmem
  | call s t before after note op next answer performed =>
      intro session hmem
      have hcaller := ha ⟨note, .call op next⟩ (by simp)
      rcases List.mem_append.mp hmem with hmem | hmem
      · exact ha session (List.mem_append_left _ hmem)
      · rcases List.mem_cons.mp hmem with rfl | hmem
        · exact hcaller.2 answer
        · exact ha session (List.mem_append_right _ (List.mem_cons_of_mem _ hmem))

theorem run_keeping {ends : Note → α → Prop}
    (hkeeps : ∀ note p, starts note p → Keeps record allowed ends note p)
    (h : Run starts record performs a b) (ha : Keeping record allowed ends a) :
    Keeping record allowed ends b := by
  induction h with
  | refl => exact ha
  | tail _ hstep ih => exact hstep.keeping hkeeps ih

theorem Step.allKeep (hkeeps : ∀ note p, starts note p → Keeps record allowed (fun _ _ => True) note p)
    (h : Step starts record performs a b) (ha : AllKeep record allowed a) :
    AllKeep record allowed b :=
  h.keeping hkeeps ha

/-- An invariant of the state and all notes that starts and allowed calls keep
holds throughout a run. -/
theorem run_invariant {I : σ → List Note → Prop}
    (hkeeps : ∀ note p, starts note p → Keeps record allowed (fun _ _ => True) note p)
    (hstart : ∀ s notes note p, starts note p → I s notes → I s (note :: notes))
    (hcall : ∀ s t before after note op answer, allowed note op → performs op s answer t →
      I s (before ++ note :: after) → I t (before ++ record note op answer :: after))
    (h : Run starts record performs a b) (hkeep : AllKeep record allowed a)
    (ha : I a.state a.notes) : AllKeep record allowed b ∧ I b.state b.notes := by
  induction h with
  | refl => exact ⟨hkeep, ha⟩
  | tail _ hstep ih =>
      obtain ⟨hkept, hi⟩ := ih
      refine ⟨hstep.allKeep hkeeps hkept, ?_⟩
      cases hstep with
      | start s sessions note p started => exact hstart _ _ _ _ started hi
      | call s t before after note op next answer performed =>
          have hcaller := hkept ⟨note, .call op next⟩ (by simp)
          simp only [Room.notes, List.map_append, List.map_cons] at hi ⊢
          exact hcall _ _ _ _ _ _ _ hcaller.1 performed hi

end

/-- Steps whose calls meet a condition on the caller's note, the other notes and
the call. -/
inductive StepWhen (starts : Note → Prog Op Ans α → Prop) (record : Note → (op : Op) → Ans op → Note)
    (performs : (op : Op) → σ → Ans op → σ → Prop) (meets : Note → List Note → Op → Prop) :
    Room Op Ans Note σ α → Room Op Ans Note σ α → Prop
  | start (s : σ) (sessions : List (Session Op Ans Note α)) (note : Note) (p : Prog Op Ans α)
      (started : starts note p) :
      StepWhen starts record performs meets ⟨s, sessions⟩ ⟨s, ⟨note, p⟩ :: sessions⟩
  | call (s t : σ) (before after : List (Session Op Ans Note α)) (note : Note) (op : Op)
      (next : Ans op → Prog Op Ans α) (answer : Ans op) (performed : performs op s answer t)
      (met : meets note ((before ++ after).map Session.note) op) :
      StepWhen starts record performs meets ⟨s, before ++ ⟨note, .call op next⟩ :: after⟩
        ⟨t, before ++ ⟨record note op answer, next answer⟩ :: after⟩

abbrev RunWhen (starts : Note → Prog Op Ans α → Prop) (record : Note → (op : Op) → Ans op → Note)
    (performs : (op : Op) → σ → Ans op → σ → Prop) (meets : Note → List Note → Op → Prop) :
    Room Op Ans Note σ α → Room Op Ans Note σ α → Prop :=
  Relation.ReflTransGen (StepWhen starts record performs meets)

section
variable {starts : Note → Prog Op Ans α → Prop} {record : Note → (op : Op) → Ans op → Note}
  {performs : (op : Op) → σ → Ans op → σ → Prop} {meets : Note → List Note → Op → Prop}
  {allowed : Note → Op → Prop} {a b : Room Op Ans Note σ α}

theorem StepWhen.step (h : StepWhen starts record performs meets a b) :
    Step starts record performs a b := by
  cases h with
  | start s sessions note p started => exact .start s sessions note p started
  | call s t before after note op next answer performed met =>
      exact .call s t before after note op next answer performed

/-- The next call of the last session to start. -/
theorem stepWhen_first {s t : σ} {sessions : List (Session Op Ans Note α)} {note : Note} {op : Op}
    {next : Ans op → Prog Op Ans α} {answer : Ans op} (performed : performs op s answer t)
    (met : meets note (sessions.map Session.note) op) :
    StepWhen starts record performs meets ⟨s, ⟨note, .call op next⟩ :: sessions⟩
      ⟨t, ⟨record note op answer, next answer⟩ :: sessions⟩ :=
  .call s t [] sessions note op next answer performed met

/-- An invariant that starts keep, and allowed calls that meet the condition. -/
theorem runWhen_invariant {I : σ → List Note → Prop} {ends : Note → α → Prop}
    (hkeeps : ∀ note p, starts note p → Keeps record allowed ends note p)
    (hstart : ∀ s notes note p, starts note p → I s notes → I s (note :: notes))
    (hcall : ∀ s t before after note op answer, allowed note op → performs op s answer t →
      meets note (before ++ after) op → I s (before ++ note :: after) →
      I t (before ++ record note op answer :: after))
    (h : RunWhen starts record performs meets a b) (hkeep : Keeping record allowed ends a)
    (ha : I a.state a.notes) : Keeping record allowed ends b ∧ I b.state b.notes := by
  induction h with
  | refl => exact ⟨hkeep, ha⟩
  | tail _ hstep ih =>
      obtain ⟨hkept, hi⟩ := ih
      refine ⟨hstep.step.keeping hkeeps hkept, ?_⟩
      cases hstep with
      | start s sessions note p started => exact hstart _ _ _ _ started hi
      | call s t before after note op next answer performed met =>
          have hcaller := hkept ⟨note, .call op next⟩ (by simp)
          rw [List.map_append] at met
          simp only [Room.notes, List.map_append, List.map_cons] at hi ⊢
          exact hcall _ _ _ _ _ _ _ hcaller.1 performed met hi

end

/-- Each note is upheld by the state, and the ids that sessions own are drawn
from a counter, no two alike. -/
structure Identified (owner : Note → Option ℕ) (next : σ → ℕ) (upheld : σ → Note → Prop) (s : σ)
    (notes : List Note) : Prop where
  upheld : ∀ note ∈ notes, upheld s note
  drawn : ∀ note ∈ notes, ∀ id, owner note = some id → id < next s
  distinct : (notes.filterMap owner).Nodup

section
variable {owner : Note → Option ℕ} {next : σ → ℕ} {upheld : σ → Note → Prop} {s t : σ}
  {note note' : Note} {notes before after : List Note}

theorem identified_nil : Identified owner next upheld s [] :=
  ⟨nofun, nofun, List.nodup_nil⟩

theorem Identified.start (h : Identified owner next upheld s notes) (hnote : upheld s note)
    (howner : owner note = none) : Identified owner next upheld s (note :: notes) := by
  refine ⟨?_, ?_, ?_⟩
  · intro other hmem
    rcases List.mem_cons.mp hmem with rfl | hmem
    · exact hnote
    · exact h.upheld other hmem
  · intro other hmem id hid
    rcases List.mem_cons.mp hmem with rfl | hmem
    · rw [howner] at hid
      cases hid
    · exact h.drawn other hmem id hid
  · rw [List.filterMap_cons_none howner]
    exact h.distinct

theorem Identified.mono (h : Identified owner next upheld s notes)
    (hupheld : ∀ note, upheld s note → upheld t note) (hnext : next s ≤ next t) :
    Identified owner next upheld t notes :=
  ⟨fun note hmem => hupheld note (h.upheld note hmem),
    fun note hmem id hid => Nat.lt_of_lt_of_le (h.drawn note hmem id hid) hnext, h.distinct⟩

theorem Identified.caller (h : Identified owner next upheld s (before ++ note :: after)) :
    upheld s note :=
  h.upheld note (by simp)

/-- A call of one session keeps what the others rely on, whose ids are not its
own. -/
theorem Identified.call (h : Identified owner next upheld s (before ++ note :: after))
    (hnote : upheld t note') (hnext : next s ≤ next t)
    (howner : owner note' = owner note ∨
      owner note = none ∧ owner note' = some (next s) ∧ next s < next t)
    (hothers : ∀ other, upheld s other →
      (∀ id, owner other = some id → id < next s ∧ owner note ≠ some id) → upheld t other) :
    Identified owner next upheld t (before ++ note' :: after) := by
  have hmem : ∀ other, other ∈ before ++ after → other ∈ before ++ note :: after := by
    intro other hother
    rcases List.mem_append.mp hother with hbefore | hafter
    · exact List.mem_append_left _ hbefore
    · exact List.mem_append_right _ (List.mem_cons_of_mem _ hafter)
  have hcases : ∀ other ∈ before ++ note' :: after, other = note' ∨ other ∈ before ++ after := by
    intro other hother
    simp only [List.mem_append, List.mem_cons] at hother ⊢
    tauto
  refine ⟨?_, ?_, ?_⟩
  · intro other hother
    rcases hcases other hother with rfl | hother
    · exact hnote
    · refine hothers other (h.upheld other (hmem other hother)) fun id hid =>
        ⟨h.drawn other (hmem other hother) id hid, fun hown => ?_⟩
      have hdistinct := h.distinct
      rw [List.filterMap_append, List.filterMap_cons_some hown, List.nodup_middle] at hdistinct
      refine (List.nodup_cons.mp hdistinct).1 ?_
      rw [← List.filterMap_append]
      exact List.mem_filterMap.mpr ⟨other, hother, hid⟩
  · intro other hother id hid
    rcases hcases other hother with rfl | hother
    · rcases howner with hsame | ⟨-, hnew, hlt⟩
      · rw [hsame] at hid
        exact Nat.lt_of_lt_of_le (h.drawn note (by simp) id hid) hnext
      · obtain rfl := Option.some_inj.mp (hnew.symm.trans hid)
        exact hlt
    · exact Nat.lt_of_lt_of_le (h.drawn other (hmem other hother) id hid) hnext
  · have hdistinct := h.distinct
    rcases howner with hsame | ⟨hnone, hnew, -⟩
    · rw [List.filterMap_append] at hdistinct ⊢
      simp only [List.filterMap_cons, hsame] at hdistinct ⊢
      exact hdistinct
    · rw [List.filterMap_append, List.filterMap_cons_none hnone] at hdistinct
      rw [List.filterMap_append, List.filterMap_cons_some hnew, List.nodup_middle]
      refine List.nodup_cons.mpr ⟨fun hold => ?_, hdistinct⟩
      rw [← List.filterMap_append] at hold
      obtain ⟨other, hother, hid⟩ := List.mem_filterMap.mp hold
      exact Nat.lt_irrefl _ (h.drawn other (hmem other hother) _ hid)

end

section
variable {starts : Note → Prog Op Ans α → Prop} {record : Note → (op : Op) → Ans op → Note}
  {performs : (op : Op) → σ → Ans op → σ → Prop}

/-- The next call of the last session to start. -/
theorem step_first {s t : σ} {sessions : List (Session Op Ans Note α)} {note : Note} {op : Op}
    {next : Ans op → Prog Op Ans α} {answer : Ans op} (performed : performs op s answer t) :
    Step starts record performs ⟨s, ⟨note, .call op next⟩ :: sessions⟩
      ⟨t, ⟨record note op answer, next answer⟩ :: sessions⟩ :=
  .call s t [] sessions note op next answer performed

/-- The last session to start can run the way it evaluates, and its note comes
out as its program says. -/
theorem run_of_eval {handle : (op : Op) → σ → Ans op × σ} {immediate : Op → Prop}
    {allowed : Note → Op → Prop} {ends : Note → α → Prop}
    (hhandle : ∀ op, immediate op → ∀ s, performs op s (handle op s).1 (handle op s).2)
    {p : Prog Op Ans α} {note : Note} (honly : p.Only immediate)
    (hkeeps : Keeps record allowed ends note p) (s : σ) (sessions : List (Session Op Ans Note α)) :
    ∃ note', ends note' (p.eval handle s).1 ∧
      Run starts record performs ⟨s, ⟨note, p⟩ :: sessions⟩
        ⟨(p.eval handle s).2, ⟨note', .pure (p.eval handle s).1⟩ :: sessions⟩ := by
  induction p generalizing note s with
  | pure a => exact ⟨note, hkeeps, .refl⟩
  | call op next ih =>
      obtain ⟨note', hends, hrun⟩ := ih (handle op s).1 (honly.2 _) (hkeeps.2 _) (handle op s).2
      exact ⟨note', hends, hrun.head (step_first (hhandle op honly.1 s))⟩

/-- The last session to start makes the calls of its program. -/
theorem run_of_calls {s t : σ} {p q : Prog Op Ans α} (h : Interleaving.Calls performs (s, p) (t, q))
    (note : Note) (sessions : List (Session Op Ans Note α)) :
    ∃ note', Run starts record performs ⟨s, ⟨note, p⟩ :: sessions⟩ ⟨t, ⟨note', q⟩ :: sessions⟩ := by
  have general : ∀ x, Interleaving.Calls performs (s, p) x → ∃ note', Run starts record performs
      ⟨s, ⟨note, p⟩ :: sessions⟩ ⟨x.1, ⟨note', x.2⟩ :: sessions⟩ := by
    intro x hx
    induction hx with
    | refl => exact ⟨note, .refl⟩
    | tail _ hcall ih =>
        obtain ⟨note', hrun⟩ := ih
        cases hcall with
        | perform op s t answer next performed => exact ⟨_, hrun.tail (step_first performed)⟩
  exact general _ h

end

section
variable {starts : Note → Prog Op Ans α → Prop} {record : Note → (op : Op) → Ans op → Note}
  {performs : (op : Op) → σ → Ans op → σ → Prop} {handle : (op : Op) → σ → Ans op × σ}

/-- The session at a place makes its next call. -/
def turn (handle : (op : Op) → σ → Ans op × σ) (record : Note → (op : Op) → Ans op → Note)
    (room : Room Op Ans Note σ α) (place : ℕ) : Room Op Ans Note σ α :=
  match room.sessions[place]? with
  | some ⟨note, .call op next⟩ =>
      let done := handle op room.state
      ⟨done.2, room.sessions.set place ⟨record note op done.1, next done.1⟩⟩
  | _ => room

theorem run_turn (hhandle : ∀ op s, performs op s (handle op s).1 (handle op s).2)
    (room : Room Op Ans Note σ α) (place : ℕ) :
    Run starts record performs room (turn handle record room place) := by
  obtain ⟨s, sessions⟩ := room
  unfold turn
  split
  · rename_i note op next hsession
    obtain ⟨hlt, hat⟩ := List.getElem?_eq_some_iff.mp hsession
    have hsplit : sessions = sessions.take place ++ ⟨note, .call op next⟩ :: sessions.drop (place + 1) := by
      rw [← hat, List.getElem_cons_drop, List.take_append_drop]
    have hset : ∀ session, sessions.set place session =
        sessions.take place ++ session :: sessions.drop (place + 1) := fun session =>
      List.set_eq_take_append_cons_drop.trans (if_pos hlt)
    apply Relation.ReflTransGen.single
    simp only [hset]
    conv_lhs => rw [hsplit]
    exact .call s _ _ _ note op next _ (hhandle op s)
  · exact .refl

/-- Sessions take turns. -/
theorem run_turns (hhandle : ∀ op s, performs op s (handle op s).1 (handle op s).2)
    (room : Room Op Ans Note σ α) (schedule : List ℕ) :
    Run starts record performs room (schedule.foldl (turn handle record) room) := by
  induction schedule generalizing room with
  | nil => exact .refl
  | cons place schedule ih => exact (run_turn hhandle room place).trans (ih _)

end

end CkbDex.Sessions
