import CkbDex.Collections
import CkbDex.FixedWindows
import Mathlib.Data.Finset.Dedup
import Mathlib.Data.Finset.Card

/-!
# The rate limiter

The fixed-window limiter of the public read routes. It remembers one window for
each client and forgets the expired ones only when its table is full. What it
lets through never depends on what it has forgotten.
-/
namespace CkbDex.RateLimiter
open Collections FixedWindows

structure RateLimitOptions where
  windowMs : ℤ
  max : ℕ
  maxClients : ℕ := 10000
  windowMs_pos : 0 < windowMs
  max_pos : 0 < max
  maxClients_pos : 0 < maxClients

structure Window where
  client : String
  start : ℤ
  count : ℕ
  deriving DecidableEq, Repr

abbrev Windows := Collection String Window Window.client

/-- What a client is answered: the number of requests it has left, or 429 with
or without the seconds to wait. -/
inductive Verdict where
  | next (remaining : ℕ)
  | refused (retryAfter : ℤ)
  | shed
  deriving DecidableEq, Repr

def Verdict.passes : Verdict → Bool
  | .next _ => true
  | .refused _ => false
  | .shed => false

section
variable (options : RateLimitOptions) (now : ℤ)

def expired (window : Window) : Bool := options.windowMs ≤ now - window.start

/-- `Math.ceil((entry.start + windowMs - now) / 1000)` -/
def retryAfter (window : Window) : ℤ := (window.start + options.windowMs - now + 999) / 1000

def countRequest (window : Window) (windows : Windows) : Verdict × Windows :=
  let entry := { window with count := window.count + 1 }
  if options.max < entry.count then (.refused (retryAfter options now entry), windows.put entry)
  else (.next (options.max - entry.count), windows.put entry)

/-- A full table forgets its expired windows. -/
def makeRoom (windows : Windows) : Windows :=
  if options.maxClients ≤ windows.docs.length then windows.deleteWhere (expired options now)
  else windows

def rateLimiter (key : String) (windows : Windows) : Verdict × Windows :=
  match (windows.find? key).filter fun entry => !expired options now entry with
  | some entry => countRequest options now entry windows
  | none =>
      let windows := makeRoom options now windows
      if options.maxClients ≤ windows.docs.length then (.shed, windows)
      else countRequest options now ⟨key, now, 0⟩ windows

end

/-- The client of a request and its time. -/
abbrev Request := Event String

/-- The table after some requests, the latest first. -/
def tableAfter (options : RateLimitOptions) : List Request → Windows
  | [] => .empty
  | request :: earlier => (rateLimiter options request.time request.key (tableAfter options earlier)).2

def verdict (options : RateLimitOptions) (request : Request) (earlier : List Request) : Verdict :=
  (rateLimiter options request.time request.key (tableAfter options earlier)).1

/-- The requests that were let through. -/
def passed (options : RateLimitOptions) : List Request → List Request
  | [] => []
  | request :: earlier =>
      if (verdict options request earlier).passes then request :: passed options earlier
      else passed options earlier

theorem passed_sublist (options : RateLimitOptions) (requests : List Request) :
    (passed options requests).Sublist requests := by
  induction requests with
  | nil => exact .slnil
  | cons request earlier ih =>
      rw [passed]
      split_ifs
      · exact ih.cons_cons request
      · exact ih.cons request

section
variable {options : RateLimitOptions} {now : ℤ} {windows : Windows} {key : String} {entry : Window}

theorem expired_eq_false : expired options now entry = false ↔ now < entry.start + options.windowMs := by
  simp only [expired, decide_eq_false_iff_not]
  omega

/-- What a request can do: it is counted in the window of its client, it opens a
window, or the table is full of windows of other clients. -/
theorem rateLimiter_cases (options : RateLimitOptions) (now : ℤ) (key : String) (windows : Windows) :
    (∃ entry, windows.find? key = some entry ∧ now < entry.start + options.windowMs ∧
      rateLimiter options now key windows = countRequest options now entry windows) ∨
    (∀ entry, windows.find? key = some entry → entry.start + options.windowMs ≤ now) ∧
      ((makeRoom options now windows).docs.length < options.maxClients ∧
          rateLimiter options now key windows =
            countRequest options now ⟨key, now, 0⟩ (makeRoom options now windows) ∨
        options.maxClients ≤ (makeRoom options now windows).docs.length ∧
          rateLimiter options now key windows = (.shed, makeRoom options now windows)) := by
  cases hlive : (windows.find? key).filter fun entry => !expired options now entry with
  | some entry =>
      obtain ⟨hfind, hexpired⟩ := Option.filter_eq_some_iff.mp hlive
      refine Or.inl ⟨entry, hfind, expired_eq_false.mp (by simpa using hexpired), ?_⟩
      simp only [rateLimiter, hlive]
  | none =>
      refine Or.inr ⟨?_, ?_⟩
      · intro entry hfind
        rw [hfind] at hlive
        by_contra hlt
        have hfresh : expired options now entry = false := expired_eq_false.mpr (not_le.mp hlt)
        simp [Option.filter, hfresh] at hlive
      · simp only [rateLimiter, hlive]
        rcases Nat.lt_or_ge (makeRoom options now windows).docs.length options.maxClients with hlt | hge
        · exact Or.inl ⟨hlt, if_neg (Nat.not_le.mpr hlt)⟩
        · exact Or.inr ⟨hge, if_pos hge⟩

theorem mem_makeRoom (h : entry ∈ (makeRoom options now windows).docs) : entry ∈ windows.docs := by
  unfold makeRoom at h
  split_ifs at h
  · exact (Collection.mem_docs_deleteWhere.mp h).1
  · exact h

/-- A window that is not over is not forgotten. -/
theorem find?_makeRoom (hfind : windows.find? key = some entry)
    (hlive : now < entry.start + options.windowMs) :
    (makeRoom options now windows).find? key = some entry := by
  unfold makeRoom
  split_ifs
  · rw [Collection.find?_deleteWhere, hfind, Option.filter_some_pos]
    rw [expired_eq_false.mpr hlive, Bool.not_false]
  · exact hfind

/-- A table that stays full has no expired window. -/
theorem live_of_full (hfull : options.maxClients ≤ (makeRoom options now windows).docs.length)
    (hmem : entry ∈ (makeRoom options now windows).docs) : now < entry.start + options.windowMs := by
  unfold makeRoom at hfull hmem
  split_ifs at hfull hmem with hlen
  · exact expired_eq_false.mp (Collection.mem_docs_deleteWhere.mp hmem).2
  · exact absurd hfull hlen

theorem length_makeRoom_le : (makeRoom options now windows).docs.length ≤ windows.docs.length := by
  unfold makeRoom
  split_ifs
  · exact List.length_filter_le ..
  · exact le_refl _

/-- The table holds every window that is not over. The count of an entry goes on
beyond the bound, the requests that pass do not. -/
structure Tracks (options : RateLimitOptions) (windows : Windows) (passes : List Request) (now : ℤ) :
    Prop where
  size : windows.docs.length ≤ options.maxClients
  bounded : Bounded options.windowMs options.max passes
  entry : ∀ entry ∈ windows.docs, ∃ rest,
    starts options.windowMs entry.client passes = entry.start :: rest ∧
      passes.countP (inside options.windowMs entry.client entry.start) = min entry.count options.max
  live : ∀ client, HasWindow options.windowMs client now passes → ∃ entry, windows.find? client = some entry

variable {passes : List Request} {request : Request}

theorem Tracks.empty (now : ℤ) : Tracks options .empty [] now where
  size := Nat.zero_le _
  bounded := by
    intro client start hstart
    cases hstart
  entry := by
    intro entry hmem
    cases hmem
  live := by
    intro client hwindow
    cases hwindow

theorem Tracks.later {now' : ℤ} (h : Tracks options windows passes now) (hle : now ≤ now') :
    Tracks options windows passes now' where
  size := h.size
  bounded := h.bounded
  entry := h.entry
  live := by
    intro client hwindow
    obtain ⟨start, rest, hstarts, hlt⟩ := hasWindow_iff.mp hwindow
    exact h.live client (hasWindow_iff.mpr ⟨start, rest, hstarts, lt_of_le_of_lt hle hlt⟩)

theorem Tracks.start_of_find? (h : Tracks options windows passes now)
    (hfind : windows.find? key = some entry) : ∃ rest,
      starts options.windowMs key passes = entry.start :: rest ∧
        passes.countP (inside options.windowMs key entry.start) = min entry.count options.max := by
  obtain ⟨hmem, rfl⟩ := Collection.find?_eq_some.mp hfind
  exact h.entry entry hmem

/-- The windows of the table that are not over are those of the history. -/
theorem Tracks.hasWindow_iff (h : Tracks options windows passes now) :
    HasWindow options.windowMs key now passes ↔
      ∃ entry, windows.find? key = some entry ∧ now < entry.start + options.windowMs := by
  constructor
  · intro hwindow
    obtain ⟨entry, hfind⟩ := h.live key hwindow
    obtain ⟨rest, hstarts, -⟩ := h.start_of_find? hfind
    obtain ⟨start, rest', hstarts', hlt⟩ := FixedWindows.hasWindow_iff.mp hwindow
    rw [hstarts] at hstarts'
    cases hstarts'
    exact ⟨entry, hfind, hlt⟩
  · rintro ⟨entry, hfind, hlt⟩
    obtain ⟨rest, hstarts, -⟩ := h.start_of_find? hfind
    exact FixedWindows.hasWindow_iff.mpr ⟨entry.start, rest, hstarts, hlt⟩

theorem Tracks.withRoom (h : Tracks options windows passes now) :
    Tracks options (makeRoom options now windows) passes now where
  size := le_trans length_makeRoom_le h.size
  bounded := h.bounded
  entry := fun entry hmem => h.entry entry (mem_makeRoom hmem)
  live := by
    intro client hwindow
    obtain ⟨entry, hfind, hlt⟩ := h.hasWindow_iff.mp hwindow
    exact ⟨entry, find?_makeRoom hfind hlt⟩

/-- The entry of one client is replaced; nothing changes for the others. -/
theorem Tracks.put {passes' : List Request} (h : Tracks options windows passes now)
    (hsize : (windows.put entry).docs.length ≤ options.maxClients)
    (hbounded : Bounded options.windowMs options.max passes')
    (hother : ∀ client, client ≠ entry.client →
      starts options.windowMs client passes' = starts options.windowMs client passes ∧
        ∀ start, passes'.countP (inside options.windowMs client start) =
          passes.countP (inside options.windowMs client start))
    (hown : ∃ rest, starts options.windowMs entry.client passes' = entry.start :: rest ∧
      passes'.countP (inside options.windowMs entry.client entry.start) = min entry.count options.max) :
    Tracks options (windows.put entry) passes' now where
  size := hsize
  bounded := hbounded
  entry := by
    intro other hmem
    rcases Collection.mem_docs_put.mp hmem with rfl | ⟨hmem, hne⟩
    · exact hown
    · obtain ⟨hstarts, hcount⟩ := hother other.client hne
      rw [hstarts, hcount]
      exact h.entry other hmem
  live := by
    intro client hwindow
    rw [Collection.find?_put]
    by_cases hclient : entry.client = client
    · exact ⟨entry, if_pos hclient⟩
    · rw [if_neg hclient]
      apply h.live client
      rw [HasWindow, ← (hother client fun hsame => hclient hsame.symm).1]
      exact hwindow

theorem countP_cons_other {client : String} (hne : client ≠ request.key) (start : ℤ) :
    (request :: passes).countP (inside options.windowMs client start) =
      passes.countP (inside options.windowMs client start) := by
  have hout : ¬inside options.windowMs client start request = true := by
    simp [inside, hne.symm]
  exact List.countP_cons_of_neg hout

theorem passes_countRequest (entry : Window) (windows : Windows) :
    (countRequest options now entry windows).1.passes = decide (entry.count < options.max) := by
  unfold countRequest
  simp only
  split_ifs with hlt
  · simp only [Verdict.passes]
    symm
    rw [decide_eq_false_iff_not]
    omega
  · simp only [Verdict.passes]
    symm
    rw [decide_eq_true_eq]
    omega

theorem countRequest_windows (entry : Window) (windows : Windows) :
    (countRequest options now entry windows).2 = windows.put { entry with count := entry.count + 1 } := by
  unfold countRequest
  simp only
  split_ifs <;> rfl

/-- A request in the window of its client. -/
theorem Tracks.counted (h : Tracks options windows passes request.time)
    (horder : Chronological (request :: passes)) (hfind : windows.find? request.key = some entry)
    (hlive : request.time < entry.start + options.windowMs) :
    Tracks options (windows.put { entry with count := entry.count + 1 })
      (if entry.count < options.max then request :: passes else passes) request.time := by
  have hclient : entry.client = request.key := Collection.key_of_find? hfind
  have hsize : (windows.put { entry with count := entry.count + 1 }).docs.length ≤
      options.maxClients := by
    have hsome : (windows.find? entry.client).isSome = true := by rw [hclient, hfind]; rfl
    rw [Collection.length_put, if_pos hsome]
    exact h.size
  obtain ⟨rest, hstarts, hcount⟩ := h.start_of_find? hfind
  by_cases hroom : entry.count < options.max
  · rw [if_pos hroom]
    have hover : isOver options.windowMs request.time (starts options.windowMs request.key passes) =
        false := FixedWindows.hasWindow_iff.mpr ⟨entry.start, rest, hstarts, hlive⟩
    have hbounded : Bounded options.windowMs options.max (request :: passes) := by
      apply h.bounded.cons options.windowMs_pos options.max_pos horder
      intro start others hothers _
      rw [hstarts] at hothers
      cases hothers
      omega
    refine h.put hsize hbounded ?_ ?_
    · intro client hne
      have hkey : client ≠ request.key := fun hsame => hne (hsame.trans hclient.symm)
      exact ⟨starts_cons_other hkey.symm, countP_cons_other hkey⟩
    · have hin : inside options.windowMs request.key entry.start request = true := by
        have hmem : entry.start ∈ starts options.windowMs request.key passes :=
          hstarts ▸ List.mem_cons_self
        obtain ⟨opener, hopener, -, hopening⟩ := exists_event_of_start hmem
        have hle : opener.time ≤ request.time := List.rel_of_pairwise_cons horder hopener
        simp only [inside, decide_true, Bool.true_and, Bool.and_eq_true, decide_eq_true_eq]
        omega
      refine ⟨rest, ?_, ?_⟩
      · change starts options.windowMs entry.client (request :: passes) = entry.start :: rest
        rw [hclient, starts_cons_inside hover, hstarts]
      · change (request :: passes).countP (inside options.windowMs entry.client entry.start) =
          min (entry.count + 1) options.max
        rw [hclient, List.countP_cons_of_pos hin, hcount]
        omega
  · rw [if_neg hroom]
    refine h.put hsize h.bounded (fun client _ => ⟨rfl, fun _ => rfl⟩) ⟨rest, ?_, ?_⟩
    · change starts options.windowMs entry.client passes = entry.start :: rest
      rw [hclient, hstarts]
    · change passes.countP (inside options.windowMs entry.client entry.start) =
        min (entry.count + 1) options.max
      rw [hclient, hcount]
      omega

/-- A request that opens a window. -/
theorem Tracks.opened (h : Tracks options windows passes request.time)
    (horder : Chronological (request :: passes))
    (hover : ¬HasWindow options.windowMs request.key request.time passes)
    (hroom : windows.docs.length < options.maxClients) :
    Tracks options (windows.put ⟨request.key, request.time, 1⟩) (request :: passes) request.time := by
  rw [HasWindow, Bool.not_eq_false] at hover
  refine h.put ?_ ?_ ?_ ?_
  · rw [Collection.length_put]
    split_ifs
    · exact h.size
    · exact hroom
  · apply h.bounded.cons options.windowMs_pos options.max_pos horder
    intro start rest hstarts hlt
    rw [hstarts] at hover
    exact absurd (isOver_cons.mp hover) (not_le.mpr hlt)
  · intro client hne
    exact ⟨starts_cons_other fun hsame => hne hsame.symm, countP_cons_other hne⟩
  · refine ⟨starts options.windowMs request.key passes, starts_cons_opened rfl hover, ?_⟩
    rw [countP_opened options.windowMs_pos horder rfl hover]
    have hone := options.max_pos
    change 1 = min 1 options.max
    omega

/-- One request keeps the table in step with the windows. -/
theorem Tracks.step (h : Tracks options windows passes request.time)
    (horder : Chronological (request :: passes)) :
    Tracks options (rateLimiter options request.time request.key windows).2
      (if (rateLimiter options request.time request.key windows).1.passes then request :: passes
        else passes) request.time := by
  rcases rateLimiter_cases options request.time request.key windows with
    ⟨entry, hfind, hlive, heq⟩ | ⟨hover, ⟨hroom, heq⟩ | ⟨-, heq⟩⟩
  · rw [heq, passes_countRequest, countRequest_windows]
    simpa only [decide_eq_true_eq] using h.counted horder hfind hlive
  · have hno : ¬HasWindow options.windowMs request.key request.time passes := by
      rw [h.hasWindow_iff]
      rintro ⟨entry, hfind, hlt⟩
      exact absurd (hover entry hfind) (not_le.mpr hlt)
    rw [heq, passes_countRequest, countRequest_windows, if_pos (decide_eq_true options.max_pos)]
    exact h.withRoom.opened horder hno hroom
  · rw [heq]
    exact h.withRoom

/-- A request is refused when its client has used up its window, or has none and
all windows are taken. -/
theorem Tracks.refused (h : Tracks options windows passes request.time)
    (hrefused : (rateLimiter options request.time request.key windows).1.passes = false) :
    (∃ start rest, starts options.windowMs request.key passes = start :: rest ∧
      request.time < start + options.windowMs ∧
      passes.countP (inside options.windowMs request.key start) = options.max) ∨
    ¬HasWindow options.windowMs request.key request.time passes ∧
      ∃ others : Finset String, others.card = options.maxClients ∧ request.key ∉ others ∧
        ∀ client ∈ others, HasWindow options.windowMs client request.time passes := by
  rcases rateLimiter_cases options request.time request.key windows with
    ⟨entry, hfind, hlive, heq⟩ | ⟨hover, ⟨hroom, heq⟩ | ⟨hfull, heq⟩⟩
  · rw [heq, passes_countRequest, decide_eq_false_iff_not] at hrefused
    obtain ⟨rest, hstarts, hcount⟩ := h.start_of_find? hfind
    exact Or.inl ⟨entry.start, rest, hstarts, hlive, by omega⟩
  · rw [heq, passes_countRequest, decide_eq_false_iff_not] at hrefused
    exact absurd options.max_pos hrefused
  · have hno : ¬HasWindow options.windowMs request.key request.time passes := by
      rw [h.hasWindow_iff]
      rintro ⟨entry, hfind, hlt⟩
      exact absurd (hover entry hfind) (not_le.mpr hlt)
    have hall : ∀ client ∈ (makeRoom options request.time windows).docs.map Window.client,
        HasWindow options.windowMs client request.time passes := by
      intro client hmem
      obtain ⟨entry, hentry, rfl⟩ := List.mem_map.mp hmem
      rw [h.withRoom.hasWindow_iff]
      exact ⟨entry, Collection.find?_of_mem hentry, live_of_full hfull hentry⟩
    refine Or.inr ⟨hno, ((makeRoom options request.time windows).docs.map Window.client).toFinset, ?_,
      ?_, ?_⟩
    · rw [List.toFinset_card_of_nodup (makeRoom options request.time windows).nodup, List.length_map]
      exact le_antisymm h.withRoom.size hfull
    · intro hmem
      exact hno (hall _ (List.mem_toFinset.mp hmem))
    · intro client hmem
      exact hall client (List.mem_toFinset.mp hmem)

end

section
variable {options : RateLimitOptions} {requests : List Request}

theorem chronological_passed (horder : Chronological requests) :
    Chronological (passed options requests) :=
  horder.sublist (passed_sublist options requests)

theorem tracks (horder : Chronological requests) {now : ℤ}
    (hnow : ∀ request ∈ requests, request.time ≤ now) :
    Tracks options (tableAfter options requests) (passed options requests) now := by
  induction requests generalizing now with
  | nil => exact .empty now
  | cons request earlier ih =>
      have hlatest : ∀ other ∈ earlier, other.time ≤ request.time := fun other hmem =>
        List.rel_of_pairwise_cons horder hmem
      have hbefore := ih horder.of_cons hlatest
      have hpassed : Chronological (request :: passed options earlier) := by
        apply List.Pairwise.cons _ (chronological_passed horder.of_cons)
        intro other hmem
        exact hlatest other ((passed_sublist options earlier).mem hmem)
      exact (hbefore.step hpassed).later (hnow request List.mem_cons_self)

/-- The limiter is bounded and fair, at any moment of any run. Windows are
those that the requests let through have opened. -/
theorem limiter_bounded_and_fair (options : RateLimitOptions) (requests : List Request)
    (horder : Chronological requests) :
    (tableAfter options requests).docs.length ≤ options.maxClients ∧
    (∀ client first last, last < first + options.windowMs →
      ((passed options requests).countP fun request =>
        request.key = client && first ≤ request.time && request.time ≤ last) ≤ 2 * options.max) ∧
    (∀ client, ∀ start ∈ starts options.windowMs client (passed options requests),
      (passed options requests).countP (inside options.windowMs client start) ≤ options.max) ∧
    ∀ request earlier, requests = request :: earlier → (verdict options request earlier).passes = false →
      (∃ start rest, starts options.windowMs request.key (passed options earlier) = start :: rest ∧
        request.time < start + options.windowMs ∧
        (passed options earlier).countP (inside options.windowMs request.key start) = options.max) ∨
      ¬HasWindow options.windowMs request.key request.time (passed options earlier) ∧
        ∃ others : Finset String, others.card = options.maxClients ∧ request.key ∉ others ∧
          ∀ client ∈ others, HasWindow options.windowMs client request.time (passed options earlier) := by
  have hnow : ∃ now : ℤ, ∀ request ∈ requests, request.time ≤ now := by
    cases requests with
    | nil => exact ⟨0, by simp⟩
    | cons request earlier =>
        refine ⟨request.time, ?_⟩
        intro other hmem
        rcases List.mem_cons.mp hmem with rfl | hearlier
        · exact le_refl _
        · exact List.rel_of_pairwise_cons horder hearlier
  obtain ⟨now, hnow⟩ := hnow
  have htracks : Tracks options (tableAfter options requests) (passed options requests) now :=
    tracks horder hnow
  refine ⟨htracks.size, ?_, htracks.bounded, ?_⟩
  · intro client first last hshort
    exact countP_interval_le options.windowMs_pos (chronological_passed horder) htracks.bounded hshort
  · rintro request earlier rfl hrefused
    have hlatest : ∀ other ∈ earlier, other.time ≤ request.time := fun other hmem =>
      List.rel_of_pairwise_cons horder hmem
    exact (tracks horder.of_cons hlatest).refused hrefused

/-- The table has room for one client, who has just used up its window. -/
def exampleOptions : RateLimitOptions where
  windowMs := 1000
  max := 1
  maxClients := 1
  windowMs_pos := by decide
  max_pos := by decide
  maxClients_pos := by decide

def exampleRequests : List Request := [⟨"b", 5⟩, ⟨"a", 1⟩, ⟨"a", 0⟩]

theorem limiter_bounded_and_fair_example : (tableAfter exampleOptions exampleRequests).docs.length ≤ 1 ∧
    ∃ others : Finset String, others.card = 1 ∧ "b" ∉ others ∧
      ∀ client ∈ others, HasWindow 1000 client 5 (passed exampleOptions exampleRequests.tail) := by
  have horder : Chronological exampleRequests := by
    simp [Chronological, exampleRequests]
  obtain ⟨hsize, -, -, hrefused⟩ := limiter_bounded_and_fair exampleOptions exampleRequests horder
  refine ⟨hsize, ?_⟩
  rcases hrefused ⟨"b", 5⟩ [⟨"a", 1⟩, ⟨"a", 0⟩] rfl (by decide +kernel) with
    ⟨start, rest, hstarts, -⟩ | ⟨-, hothers⟩
  · have hnone : starts 1000 "b" (passed exampleOptions [⟨"a", 1⟩, ⟨"a", 0⟩]) = [] := by decide +kernel
    change starts 1000 "b" (passed exampleOptions [⟨"a", 1⟩, ⟨"a", 0⟩]) = _ at hstarts
    rw [hnone] at hstarts
    cases hstarts
  · exact hothers

end

end CkbDex.RateLimiter
