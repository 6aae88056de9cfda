import Mathlib.Algebra.Order.Group.Int
import Mathlib.Data.List.Count
import Mathlib.Tactic.Linarith

/-!
# Fixed windows

Events of many keys at non-decreasing times. The first event of a key opens a
window of a given width, and so does its first event after each window. Windows
of one key are disjoint and cover its events, so a bound for every window bounds
the events of any shorter interval by its double.
-/
namespace CkbDex.FixedWindows

variable {κ : Type} [DecidableEq κ]

structure Event (κ : Type) where
  key : κ
  time : ℤ
  deriving DecidableEq

section
variable (width : ℤ) (k : κ)

/-- Whether the latest of some windows is over. -/
def isOver (now : ℤ) (starts : List ℤ) : Bool := starts.head?.all fun start => start + width ≤ now

/-- Where the windows of a key start, by the events so far, the latest first. -/
def starts : List (Event κ) → List ℤ
  | [] => []
  | event :: earlier =>
      if event.key = k && isOver width event.time (starts earlier) then event.time :: starts earlier
      else starts earlier

def inside (start : ℤ) (event : Event κ) : Bool :=
  event.key = k && start ≤ event.time && event.time < start + width

/-- A key has a window that is not over. -/
def HasWindow (now : ℤ) (events : List (Event κ)) : Prop := isOver width now (starts width k events) = false

instance (now : ℤ) (events : List (Event κ)) : Decidable (HasWindow width k now events) :=
  inferInstanceAs (Decidable (_ = _))

end

/-- The latest event first. -/
def Chronological (events : List (Event κ)) : Prop :=
  events.Pairwise fun later earlier => earlier.time ≤ later.time

section
variable {width : ℤ} {k : κ} {event : Event κ} {events : List (Event κ)} {start : ℤ}

theorem isOver_cons {now : ℤ} {rest : List ℤ} :
    isOver width now (start :: rest) = true ↔ start + width ≤ now := by
  simp [isOver]

theorem hasWindow_iff {now : ℤ} :
    HasWindow width k now events ↔
      ∃ start rest, starts width k events = start :: rest ∧ now < start + width := by
  unfold HasWindow
  cases h : starts width k events with
  | nil => simp [isOver]
  | cons start rest => simp [isOver]

theorem starts_cons_opened (hkey : event.key = k)
    (hover : isOver width event.time (starts width k events) = true) :
    starts width k (event :: events) = event.time :: starts width k events := by
  simp [starts, hkey, hover]

theorem starts_cons_inside (hover : isOver width event.time (starts width k events) = false) :
    starts width k (event :: events) = starts width k events := by
  simp [starts, hover]

theorem starts_cons_other (hkey : event.key ≠ k) :
    starts width k (event :: events) = starts width k events := by
  simp [starts, hkey]

theorem exists_event_of_start (h : start ∈ starts width k events) :
    ∃ event ∈ events, event.key = k ∧ event.time = start := by
  induction events with
  | nil => cases h
  | cons event events ih =>
      rw [starts] at h
      split_ifs at h with hopened
      · rcases List.mem_cons.mp h with rfl | h
        · rw [Bool.and_eq_true, decide_eq_true_eq] at hopened
          exact ⟨event, List.mem_cons_self, hopened.1, rfl⟩
        · obtain ⟨other, hmem, hother⟩ := ih h
          exact ⟨other, List.mem_cons_of_mem _ hmem, hother⟩
      · obtain ⟨other, hmem, hother⟩ := ih h
        exact ⟨other, List.mem_cons_of_mem _ hmem, hother⟩

theorem starts_separated (hwidth : 0 ≤ width) :
    (starts width k events).Pairwise fun later earlier => earlier + width ≤ later := by
  induction events with
  | nil => exact List.Pairwise.nil
  | cons event events ih =>
      rw [starts]
      split_ifs with hopened
      · apply List.Pairwise.cons _ ih
        rw [Bool.and_eq_true] at hopened
        cases hstarts : starts width k events with
        | nil => simp
        | cons latest rest =>
            rw [hstarts] at hopened ih
            have hlatest := isOver_cons.mp hopened.2
            intro start hmem
            rcases List.mem_cons.mp hmem with rfl | hrest
            · exact hlatest
            · have hearlier := List.rel_of_pairwise_cons ih hrest
              omega
      · exact ih

theorem separated {other : ℤ} (hwidth : 0 ≤ width) (h : start ∈ starts width k events)
    (hother : other ∈ starts width k events) (hlt : start < other) : start + width ≤ other := by
  have hpairs : (starts width k events).Pairwise fun later earlier => earlier + width ≤ later :=
    starts_separated hwidth
  generalize starts width k events = windows at h hother hpairs
  induction windows with
  | nil => cases h
  | cons latest rest ih =>
      rcases List.mem_cons.mp hother with hlatest | hrest
      · rcases List.mem_cons.mp h with hsame | hearlier
        · omega
        · rw [hlatest]
          exact List.rel_of_pairwise_cons hpairs hearlier
      · rcases List.mem_cons.mp h with hlatest | hearlier
        · have hle := List.rel_of_pairwise_cons hpairs hrest
          omega
        · exact ih hearlier hrest hpairs.of_cons

theorem covered (hwidth : 0 < width) (horder : Chronological events) (hmem : event ∈ events)
    (hkey : event.key = k) : ∃ start ∈ starts width k events, inside width k start event = true := by
  have hinside : ∀ start : ℤ, inside width k start event = true ↔
      start ≤ event.time ∧ event.time < start + width := by
    intro start
    simp [inside, hkey]
  simp only [hinside]
  induction events with
  | nil => cases hmem
  | cons latest events ih =>
      have hrest : ∀ earlier ∈ events, earlier.time ≤ latest.time := fun earlier hearlier =>
        List.rel_of_pairwise_cons horder hearlier
      rcases List.mem_cons.mp hmem with rfl | hmem
      · cases hover : isOver width event.time (starts width k events) with
        | true =>
            rw [starts_cons_opened hkey hover]
            exact ⟨event.time, List.mem_cons_self, le_refl _, by omega⟩
        | false =>
            rw [starts_cons_inside hover]
            obtain ⟨start, rest, hstarts, hlt⟩ := hasWindow_iff.mp hover
            have hstart : start ∈ starts width k events := hstarts ▸ List.mem_cons_self
            obtain ⟨opener, hopener, -, rfl⟩ := exists_event_of_start hstart
            exact ⟨opener.time, hstart, hrest opener hopener, hlt⟩
      · obtain ⟨start, hstart, hin⟩ := ih horder.of_cons hmem
        refine ⟨start, ?_, hin⟩
        rw [starts]
        split_ifs
        · exact List.mem_cons_of_mem _ hstart
        · exact hstart

theorem over_of_isOver {now : ℤ} (hwidth : 0 ≤ width)
    (hover : isOver width now (starts width k events) = true)
    (hstart : start ∈ starts width k events) : start + width ≤ now := by
  have hpairs : (starts width k events).Pairwise fun later earlier => earlier + width ≤ later :=
    starts_separated hwidth
  cases hstarts : starts width k events with
  | nil =>
      rw [hstarts] at hstart
      cases hstart
  | cons latest rest =>
      rw [hstarts] at hover hstart hpairs
      have hlatest := isOver_cons.mp hover
      rcases List.mem_cons.mp hstart with rfl | hrest
      · exact hlatest
      · have hle := List.rel_of_pairwise_cons hpairs hrest
        omega

/-- A window that has just been opened has one event. -/
theorem countP_opened (hwidth : 0 < width) (horder : Chronological (event :: events))
    (hkey : event.key = k) (hover : isOver width event.time (starts width k events) = true) :
    (event :: events).countP (inside width k event.time) = 1 := by
  have hself : inside width k event.time event = true := by
    simp only [inside, hkey, decide_true, Bool.true_and, Bool.and_eq_true, decide_eq_true_eq]
    omega
  have hnone : events.countP (inside width k event.time) = 0 := by
    apply List.countP_eq_zero.mpr
    intro earlier hmem hin
    simp only [inside, Bool.and_eq_true, decide_eq_true_eq] at hin
    obtain ⟨start, hstart, hcover⟩ := covered hwidth horder.of_cons hmem hin.1.1
    simp only [inside, Bool.and_eq_true, decide_eq_true_eq] at hcover
    have hend := over_of_isOver hwidth.le hover hstart
    omega
  rw [List.countP_cons_of_pos hself, hnone]

/-- No window has more events than a bound. -/
def Bounded (width : ℤ) (bound : ℕ) (events : List (Event κ)) : Prop :=
  ∀ k, ∀ start ∈ starts width k events, events.countP (inside width k start) ≤ bound

/-- An event keeps the bound when its window is new or has room. -/
theorem Bounded.cons {bound : ℕ} (h : Bounded width bound events) (hwidth : 0 < width)
    (hone : 1 ≤ bound) (horder : Chronological (event :: events))
    (hroom : ∀ start rest, starts width event.key events = start :: rest → event.time < start + width →
      events.countP (inside width event.key start) < bound) :
    Bounded width bound (event :: events) := by
  intro k start hstart
  by_cases hkey : event.key = k
  · subst hkey
    cases hover : isOver width event.time (starts width event.key events) with
    | true =>
        rw [starts_cons_opened rfl hover] at hstart
        rcases List.mem_cons.mp hstart with rfl | hearlier
        · rw [countP_opened hwidth horder rfl hover]
          exact hone
        · have hend := over_of_isOver hwidth.le hover hearlier
          have hout : ¬inside width event.key start event = true := by
            simp only [inside, Bool.and_eq_true, decide_eq_true_eq]
            omega
          rw [List.countP_cons_of_neg hout]
          exact h _ _ hearlier
    | false =>
        rw [starts_cons_inside hover] at hstart
        obtain ⟨latest, rest, hstarts, hlt⟩ := hasWindow_iff.mp hover
        by_cases hlatest : start = latest
        · subst hlatest
          have hcount := hroom start rest hstarts hlt
          have hle := List.countP_le_length (p := inside width event.key start) (l := [event])
          rw [← List.singleton_append, List.countP_append]
          simp only [List.length_singleton] at hle
          omega
        · -- The event comes after the latest window has opened, so after the end of this one.
          have hopened : latest ∈ starts width event.key events := hstarts ▸ List.mem_cons_self
          have hpairs : (starts width event.key events).Pairwise
              fun later earlier => earlier + width ≤ later := starts_separated hwidth.le
          rw [hstarts] at hstart hpairs
          have hrest := (List.mem_cons.mp hstart).resolve_left hlatest
          have hend := List.rel_of_pairwise_cons hpairs hrest
          obtain ⟨opener, hopener, -, hopening⟩ := exists_event_of_start hopened
          have hlater : opener.time ≤ event.time := List.rel_of_pairwise_cons horder hopener
          have hout : ¬inside width event.key start event = true := by
            simp only [inside, Bool.and_eq_true, decide_eq_true_eq]
            omega
          rw [List.countP_cons_of_neg hout]
          exact h _ _ (hstarts ▸ hstart)
  · rw [starts_cons_other hkey] at hstart
    have hout : ¬inside width k start event = true := by simp [inside, hkey]
    rw [List.countP_cons_of_neg hout]
    exact h k start hstart

omit [DecidableEq κ] in
theorem countP_le_add {p q r : Event κ → Bool}
    (h : ∀ event ∈ events, r event = true → p event = true ∨ q event = true) :
    events.countP r ≤ events.countP p + events.countP q := by
  induction events with
  | nil => simp
  | cons event events ih =>
      have hrest := ih fun other hmem => h other (List.mem_cons_of_mem _ hmem)
      have hhead := h event List.mem_cons_self
      simp only [List.countP_cons]
      by_cases hr : r event = true
      · rcases hhead hr with hp | hq
        · rw [if_pos hr, if_pos hp]
          omega
        · rw [if_pos hr, if_pos hq]
          omega
      · rw [if_neg hr]
        omega

/-- Of three events within less than a window, two are in one window. -/
theorem two_share {a b c : Event κ} {x y z : ℤ} (hwidth : 0 < width)
    (hx : x ∈ starts width k events) (hy : y ∈ starts width k events) (hz : z ∈ starts width k events)
    (ha : inside width k x a = true) (hb : inside width k y b = true) (hc : inside width k z c = true)
    (hab : |a.time - b.time| < width) (hac : |a.time - c.time| < width)
    (hbc : |b.time - c.time| < width) : x = y ∨ x = z ∨ y = z := by
  by_contra hne
  simp only [not_or] at hne
  simp only [inside, Bool.and_eq_true, decide_eq_true_eq] at ha hb hc
  rw [abs_lt] at hab hac hbc
  have apart : ∀ {s t : ℤ}, s ∈ starts width k events → t ∈ starts width k events → s ≠ t →
      s + width ≤ t ∨ t + width ≤ s := by
    intro s t hs ht hst
    rcases lt_or_gt_of_ne hst with hlt | hlt
    · exact Or.inl (separated hwidth.le hs ht hlt)
    · exact Or.inr (separated hwidth.le ht hs hlt)
  have hxy := apart hx hy hne.1
  have hxz := apart hx hz hne.2.1
  have hyz := apart hy hz hne.2.2
  omega

/-- An interval shorter than a window has events of two windows at most. -/
theorem countP_interval_le {bound : ℕ} (hwidth : 0 < width) (horder : Chronological events)
    (hbound : Bounded width bound events) {first last : ℤ} (hshort : last < first + width) :
    events.countP (fun event => event.key = k && first ≤ event.time && event.time ≤ last) ≤
      2 * bound := by
  let within : Event κ → Bool := fun event => event.key = k && first ≤ event.time && event.time ≤ last
  have hwithin : ∀ event, within event = true ↔
      (event.key = k ∧ first ≤ event.time) ∧ event.time ≤ last := by
    intro event
    simp [within]
  have hclose : ∀ a b, within a = true → within b = true → |a.time - b.time| < width := by
    intro a b ha hb
    rw [hwithin] at ha hb
    rw [abs_lt]
    omega
  change events.countP within ≤ 2 * bound
  by_cases hone : ∃ a ∈ events, within a = true
  · obtain ⟨a, ha, hwa⟩ := hone
    obtain ⟨x, hx, hax⟩ := covered hwidth horder ha ((hwithin a).mp hwa).1.1
    by_cases htwo : ∃ b ∈ events, within b = true ∧ inside width k x b = false
    · obtain ⟨b, hb, hwb, hbx⟩ := htwo
      obtain ⟨y, hy, hby⟩ := covered hwidth horder hb ((hwithin b).mp hwb).1.1
      have hsum : events.countP within ≤
          events.countP (inside width k x) + events.countP (inside width k y) := by
        apply countP_le_add
        intro c hc hwc
        obtain ⟨z, hz, hcz⟩ := covered hwidth horder hc ((hwithin c).mp hwc).1.1
        rcases two_share hwidth hx hy hz hax hby hcz (hclose a b hwa hwb) (hclose a c hwa hwc)
          (hclose b c hwb hwc) with rfl | rfl | rfl
        · rw [hby] at hbx
          cases hbx
        · exact Or.inl hcz
        · exact Or.inr hcz
      have hxb := hbound k x hx
      have hyb := hbound k y hy
      omega
    · have hmono : events.countP within ≤ events.countP (inside width k x) := by
        apply List.countP_mono_left
        intro c hc hwc
        by_contra hout
        exact htwo ⟨c, hc, hwc, Bool.eq_false_iff.mpr hout⟩
      have hxb := hbound k x hx
      omega
  · have hzero : events.countP within = 0 := by
      apply List.countP_eq_zero.mpr
      intro a ha hwa
      exact hone ⟨a, ha, hwa⟩
    omega

end

end CkbDex.FixedWindows
