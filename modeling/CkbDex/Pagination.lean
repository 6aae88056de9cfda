import CkbDex.Collections
import CkbDex.Documents
import CkbDex.Keyset
import CkbDex.Number

/-!
# Cursors

A list endpoint answers with one page and a cursor for the next one. What an
endpoint filters by, sorts by and writes into its cursor is a `Listing`. JSON
and the text encodings of buffers are the runtime's.
-/
namespace CkbDex.Pagination
open Checked Collections Documents Keyset Number Text

/-- A field of a JSON object as cursors read it: text, an integer, or anything
else. -/
inductive Field where
  | text (s : String)
  | integer (n : ℤ)
  | other
  deriving DecidableEq

/-- An integer that is a binary64 value. -/
def Field.Exact : Field → Prop
  | .integer n => binary64 n = .finite n
  | _ => True

abbrev Payload := List (String × Field)

/-- `JSON` on flat objects, and `Buffer` from and to `base64url`. -/
structure Runtime where
  stringify : Payload → String
  /-- The fields of the object that a text denotes, if it denotes one. -/
  parse : String → Option (String → Option Field)
  toBase64url : String → String
  fromBase64url : String → String
  parse_stringify : ∀ payload : Payload, (payload.map Prod.fst).Nodup →
    (∀ field ∈ payload, field.2.Exact) → parse (stringify payload) = some fun name => payload.lookup name
  fromBase64url_toBase64url : ∀ s, fromBase64url (toBase64url s) = s

def maxPageSize : ℕ := 200
def maxCursorLength : ℕ := 512

/-- `cursorSchema`, with the error handler's text. -/
def checkCursor (cursor : Option String) : Except Failure Unit :=
  throwIf (cursor.any fun text => maxCursorLength < utf16Length text)
    (appError 400 "cursor: String must contain at most 512 character(s)")

def encodeCursor (runtime : Runtime) (payload : Payload) : String :=
  runtime.toBase64url (runtime.stringify payload)

def decodeCursor {γ : Type} (runtime : Runtime) (cursor : Option String)
    (shape : (String → Option Field) → Option γ) : Except Failure (Option γ) :=
  match cursor with
  | none => return none
  | some text => do
      let payload ← okOr ((runtime.parse (runtime.fromBase64url text)).bind shape)
        (appError 400 "Invalid cursor")
      return some payload

structure Page (α : Type) where
  items : List α
  nextCursor : Option String

def Page.map {α β : Type} (f : α → β) (page : Page α) : Page β :=
  { items := page.items.map f, nextCursor := page.nextCursor }

/-- Where a client stands that follows the cursors. -/
inductive Standing where
  | next (cursor : Option String)
  | finished
  | failed (failure : Failure)

/-- The next request of a client that follows the cursors. -/
def advance {α : Type} (answer : Option String → Except Failure (Page α)) (before : List α × Standing) :
    List α × Standing :=
  match before.2 with
  | .next cursor =>
      match answer cursor with
      | .ok page => (before.1 ++ page.items, page.nextCursor.elim .finished fun c => .next (some c))
      | .error failure => (before.1, .failed failure)
  | _ => before

/-- What a client has received after some requests. -/
def traverse {α : Type} (answer : ℕ → Option String → Except Failure (Page α)) : ℕ → List α × Standing
  | 0 => ([], .next none)
  | k + 1 => advance (answer k) (traverse answer k)

/-- What is shown of the items does not change where the cursors lead. -/
theorem traverse_map {α β : Type} (f : α → β) (answer : ℕ → Option String → Except Failure (Page α)) (k : ℕ) :
    traverse (fun j cursor => (answer j cursor).map (Page.map f)) k =
      ((traverse answer k).1.map f, (traverse answer k).2) := by
  induction k with
  | zero => rfl
  | succ k ih =>
      rw [traverse, traverse, ih]
      cases hstanding : (traverse answer k).2 with
      | next cursor =>
          simp only [advance, hstanding]
          cases answer k cursor with
          | ok page => simp [Except.map, Page.map]
          | error failure => rfl
      | finished => simp only [advance, hstanding]
      | failed failure => simp only [advance, hstanding]

/-- What a list endpoint is given by. -/
structure Listing (α κ γ : Type) where
  id : α → String
  filter : α → Bool
  sort : α → κ
  /-- What the cursor after a document holds. -/
  cursor : α → Payload
  shape : (String → Option Field) → Option γ
  /-- The `$or` that a cursor adds to the filter. -/
  past : γ → Except Failure (α → Bool)

namespace Listing
variable {α κ γ : Type} [LinearOrder κ] (l : Listing α κ γ) (runtime : Runtime) (limit : ℕ)

/-- What a request's cursor adds to the filter. -/
def after (cursor : Option String) : Except Failure (α → Bool) := do
  checkCursor cursor
  let cursor ← decodeCursor runtime cursor l.shape
  match cursor with
  | none => return fun _ => true
  | some cursor => l.past cursor

/-- One request. -/
def page (cursor : Option String) (docs : List α) : Except Failure (Page α) := do
  let past ← l.after runtime cursor
  let rows := (listed l.sort (fun a => l.filter a && past a) docs).take (limit + 1)
  let items := rows.take limit
  let nextCursor := if limit < rows.length then
    items.getLast?.map fun last => encodeCursor runtime (l.cursor last) else none
  return { items, nextCursor }

/-- What a client has received that follows the cursors, each request answered
from the documents at its time. -/
def follow (docs : ℕ → List α) (k : ℕ) : List α × Standing :=
  traverse (fun j cursor => l.page runtime limit cursor (docs j)) k

/-- The filter of a cursor is the successor relation of the sort order, and the
sort order tells documents apart. -/
structure Lawful : Prop where
  id_of_sort : ∀ a b, l.sort a = l.sort b → l.id a = l.id b
  distinct : ∀ a, ((l.cursor a).map Prod.fst).Nodup
  exact : ∀ a, ∀ field ∈ l.cursor a, field.2.Exact
  successor : ∀ a c, l.shape (fun name => (l.cursor a).lookup name) = some c →
    ∃ past, l.past c = .ok past ∧ ∀ b, past b = decide (l.sort a < l.sort b)

/-- The cursor after a document is one that a request may carry. -/
def Accepted (a : α) : Prop :=
  utf16Length (encodeCursor runtime (l.cursor a)) ≤ maxCursorLength ∧
    (l.shape fun name => (l.cursor a).lookup name).isSome = true

/-- Each document that another one follows is of a kind. -/
def Followable (kind : α → Prop) (docs : List α) : Prop :=
  ∀ a ∈ docs, l.filter a = true → ∀ b ∈ docs, l.filter b = true → l.sort a < l.sort b → kind a

/-- Paging neither skips nor repeats: along the requests that follow the
cursors, while the documents change between them. -/
structure PagesExactly (docs : ℕ → Collection String α l.id) : Prop where
  answered : ∀ k failure, (l.follow runtime limit (fun j => (docs j).docs) k).2 ≠ .failed failure
  increasing : ∀ k, (l.follow runtime limit (fun j => (docs j).docs) k).1.Pairwise
    fun a b => l.sort a < l.sort b
  once : ∀ k id x, (l.follow runtime limit (fun j => (docs j).docs) k).2 = .finished →
    (∀ j < k, ∃ a ∈ (docs j).docs, l.id a = id ∧ l.filter a = true ∧ l.sort a = x) →
    ((l.follow runtime limit (fun j => (docs j).docs) k).1.map l.id).count id = 1
  atMostOnce : ∀ k id x, (∀ j < k, ∀ a ∈ (docs j).docs, l.id a = id → l.sort a = x) →
    ((l.follow runtime limit (fun j => (docs j).docs) k).1.map l.id).count id ≤ 1
  whole : ∀ unchanged, (∀ j, docs j = unchanged) → ∃ k, l.follow runtime limit
    (fun j => (docs j).docs) k = (listed l.sort l.filter unchanged.docs, .finished)

variable {l runtime limit}

theorem follow_succ (docs : ℕ → List α) (k : ℕ) : l.follow runtime limit docs (k + 1) =
    advance (fun cursor => l.page runtime limit cursor (docs k)) (l.follow runtime limit docs k) := rfl

omit [LinearOrder κ] in
theorem after_none : l.after runtime none = .ok fun _ => true := rfl

/-- What a request reads from the cursor after a document. -/
theorem Lawful.after_cursor (h : l.Lawful) (a : α) :
    l.after runtime (some (encodeCursor runtime (l.cursor a))) =
      (if utf16Length (encodeCursor runtime (l.cursor a)) ≤ maxCursorLength then
        (okOr (l.shape fun name => (l.cursor a).lookup name) (appError 400 "Invalid cursor")).bind l.past
      else .error (appError 400 "cursor: String must contain at most 512 character(s)")) := by
  have hparse : runtime.parse (runtime.fromBase64url (encodeCursor runtime (l.cursor a))) =
      some fun name => (l.cursor a).lookup name := by
    rw [encodeCursor, runtime.fromBase64url_toBase64url, runtime.parse_stringify _ (h.distinct a) (h.exact a)]
  have hread : decodeCursor runtime (some (encodeCursor runtime (l.cursor a))) l.shape =
      (okOr (l.shape fun name => (l.cursor a).lookup name) (appError 400 "Invalid cursor")).map some := by
    rw [decodeCursor, hparse, Option.bind_some]
    cases l.shape fun name => (l.cursor a).lookup name <;> rfl
  rw [after, hread]
  split_ifs with hlen
  · have hcheck : checkCursor (some (encodeCursor runtime (l.cursor a))) = .ok () := by
      simpa [checkCursor] using hlen
    rw [hcheck]
    cases l.shape fun name => (l.cursor a).lookup name <;> rfl
  · have hcheck : checkCursor (some (encodeCursor runtime (l.cursor a))) =
        .error (appError 400 "cursor: String must contain at most 512 character(s)") := by
      rw [checkCursor, throwIf, if_pos]
      simpa using hlen
    rw [hcheck]
    rfl

theorem Lawful.after_accepted (h : l.Lawful) {a : α} (ha : l.Accepted runtime a) :
    ∃ past, l.after runtime (some (encodeCursor runtime (l.cursor a))) = .ok past ∧
      ∀ b, past b = decide (frontierAt (l.sort a) < frontierAt (l.sort b)) := by
  obtain ⟨hlen, hshape⟩ := ha
  obtain ⟨c, hc⟩ := Option.isSome_iff_exists.mp hshape
  obtain ⟨past, hpast, hsuccessor⟩ := h.successor a c hc
  refine ⟨past, ?_, fun b => ?_⟩
  · rw [h.after_cursor, if_pos hlen, hc]
    exact hpast
  · rw [hsuccessor, decide_eq_decide]
    exact frontierAt_lt.symm

theorem Lawful.after_rejected (h : l.Lawful) {a : α} (ha : ¬l.Accepted runtime a) :
    ∃ failure, l.after runtime (some (encodeCursor runtime (l.cursor a))) = .error failure := by
  rw [h.after_cursor]
  split_ifs with hlen
  · have hshape : l.shape (fun name => (l.cursor a).lookup name) = none := by
      rw [← Option.not_isSome_iff_eq_none]
      exact fun hsome => ha ⟨hlen, hsome⟩
    rw [hshape]
    exact ⟨_, rfl⟩
  · exact ⟨_, rfl⟩

theorem Lawful.sort_nodup (h : l.Lawful) (docs : Collection String α l.id) :
    (docs.docs.map l.sort).Nodup := by
  rw [List.Nodup, List.pairwise_map]
  exact (List.pairwise_map.mp docs.nodup).imp fun {a b} hne hsort => hne (h.id_of_sort a b hsort)

/-- Where a client stands after a page, and which document it stands at. -/
inductive At (l : Listing α κ γ) (runtime : Runtime) (docs : List α) : Frontier κ → Standing → Prop
  | finished : At l runtime docs ⊤ .finished
  | next (a b : α) : a ∈ docs → l.filter a = true → b ∈ docs → l.filter b = true →
      l.sort a < l.sort b →
      At l runtime docs (frontierAt (l.sort a)) (.next (some (encodeCursor runtime (l.cursor a))))

/-- A request whose cursor reads as a frontier fetches one page from there. -/
theorem Lawful.page_eq (h : l.Lawful) (hlimit : 0 < limit) {cursor : Option String}
    {past : α → Bool} {frontier : Frontier κ}
    (hafter : l.after runtime cursor = .ok past)
    (hpast : ∀ b, past b = decide (frontier < frontierAt (l.sort b))) (docs : Collection String α l.id) :
    ∃ page, l.page runtime limit cursor docs.docs = .ok page ∧
      page.items = (fetch l.sort l.filter limit frontier docs.docs).1 ∧
      At l runtime docs.docs (fetch l.sort l.filter limit frontier docs.docs).2
        (page.nextCursor.elim .finished fun c => .next (some c)) := by
  have hrows : listed l.sort (fun a => l.filter a && past a) docs.docs =
      beyond l.sort l.filter frontier docs.docs := by
    rw [beyond]
    simp only [hpast]
  rw [page, hafter]
  refine ⟨_, rfl, ?_, ?_⟩
  · simp only [hrows, fetch]
  · simp only [hrows]
    rcases Nat.lt_or_ge limit (beyond l.sort l.filter frontier docs.docs).length with hmore | hall
    · obtain ⟨front, last, rest, next, hsplit, hlen, hfetch⟩ := fetch_next hmore hlimit
      have hprobe : limit < ((beyond l.sort l.filter frontier docs.docs).take (limit + 1)).length := by
        rw [List.length_take]
        omega
      have hitems : ((beyond l.sort l.filter frontier docs.docs).take (limit + 1)).take limit =
          front ++ [last] := congrArg Prod.fst hfetch
      have hmem : ∀ a ∈ front ++ [last] ++ next :: rest, a ∈ docs.docs ∧ l.filter a = true :=
        fun a ha => by
          rw [← hsplit] at ha
          exact ⟨(mem_beyond.mp ha).1, (mem_beyond.mp ha).2.1⟩
      have hsorted : (beyond l.sort l.filter frontier docs.docs).Pairwise fun a b => l.sort a < l.sort b :=
        listed_sorted (h.sort_nodup docs)
      rw [hsplit, List.pairwise_append] at hsorted
      rw [if_pos hprobe, hitems, List.getLast?_concat, hfetch]
      obtain ⟨hlast, hlastPasses⟩ := hmem last (by simp)
      obtain ⟨hnext, hnextPasses⟩ := hmem next (by simp)
      exact .next last next hlast hlastPasses hnext hnextPasses
        (hsorted.2.2 last (by simp) next List.mem_cons_self)
    · have hprobe : ¬limit < ((beyond l.sort l.filter frontier docs.docs).take (limit + 1)).length := by
        rw [List.length_take]
        omega
      rw [if_neg hprobe, fetch_last hall]
      exact .finished

/-- Where a client stands after some requests. -/
def Reached (l : Listing α κ γ) (runtime : Runtime) (docs : ℕ → Collection String α l.id) :
    ℕ → Frontier κ → Standing → Prop
  | 0, frontier, standing => frontier = ⊥ ∧ standing = .next none
  | k + 1, frontier, standing => At l runtime (docs k).docs frontier standing

section
variable {docs : ℕ → Collection String α l.id} {k : ℕ} {frontier : Frontier κ}

theorem Reached.finished (h : Reached l runtime docs k frontier .finished) : frontier = ⊤ := by
  cases k with
  | zero => cases h.2
  | succ k => cases h with | finished => rfl

theorem Reached.not_failed {failure : Failure} (h : Reached l runtime docs k frontier (.failed failure)) :
    False := by
  cases k with
  | zero => cases h.2
  | succ k => cases h

/-- The next request fails, or its cursor reads as where the client stands. -/
theorem Reached.after (hl : l.Lawful) {cursor : Option String}
    (h : Reached l runtime docs k frontier (.next cursor)) :
    (∃ past, l.after runtime cursor = .ok past ∧
      ∀ b, past b = decide (frontier < frontierAt (l.sort b))) ∨
    (∃ failure, l.after runtime cursor = .error failure) ∧
      ∃ j, ¬l.Followable (l.Accepted runtime) (docs j).docs := by
  cases k with
  | zero =>
    obtain ⟨rfl, hnone⟩ := h
    cases hnone
    exact Or.inl ⟨_, after_none, fun b => by simp [frontierAt]⟩
  | succ k =>
    cases h with
    | next a b ha hpasses hb hbpasses hlt =>
      by_cases haccepted : l.Accepted runtime a
      · exact Or.inl (hl.after_accepted haccepted)
      · exact Or.inr ⟨hl.after_rejected haccepted, k, fun hfollowable =>
          haccepted (hfollowable a ha hpasses b hb hbpasses hlt)⟩

/-- Up to a request that fails, a client receives what a traversal by key lists. -/
theorem Lawful.follow_walk (h : l.Lawful) (hlimit : 0 < limit) (k : ℕ) :
    ((∃ failure, (l.follow runtime limit (fun j => (docs j).docs) k).2 = .failed failure) ∧
      ∃ j, ¬l.Followable (l.Accepted runtime) (docs j).docs) ∨
    (l.follow runtime limit (fun j => (docs j).docs) k).1 =
        (walk l.sort l.filter limit (fun j => (docs j).docs) k).1 ∧
      Reached l runtime docs k (walk l.sort l.filter limit (fun j => (docs j).docs) k).2
        (l.follow runtime limit (fun j => (docs j).docs) k).2 := by
  induction k with
  | zero => exact Or.inr ⟨rfl, rfl, rfl⟩
  | succ k ih =>
    obtain ⟨received, hreceived⟩ : ∃ received,
        l.follow runtime limit (fun j => (docs j).docs) k = received := ⟨_, rfl⟩
    obtain ⟨walked, hwalked⟩ : ∃ walked,
        walk l.sort l.filter limit (fun j => (docs j).docs) k = walked := ⟨_, rfl⟩
    obtain ⟨items, standing⟩ := received
    rw [follow_succ, walk]
    simp only [hreceived, hwalked, advance] at ih ⊢
    rcases ih with ⟨⟨failure, rfl⟩, hnot⟩ | ⟨rfl, hreached⟩
    · exact Or.inl ⟨⟨failure, rfl⟩, hnot⟩
    cases standing with
    | next cursor =>
      rcases hreached.after h with ⟨past, hafter, hpast⟩ | ⟨⟨failure, hafter⟩, hnot⟩
      · obtain ⟨page, hpage, hitems, hat⟩ := h.page_eq hlimit hafter hpast (docs k)
        simp only [hpage]
        exact Or.inr ⟨congrArg (walked.1 ++ ·) hitems, hat⟩
      · have hpage : l.page runtime limit cursor (docs k).docs = .error failure := by
          rw [page, hafter]
          rfl
        simp only [hpage]
        exact Or.inl ⟨⟨failure, rfl⟩, hnot⟩
    | finished =>
      rw [hreached.finished, fetch_top]
      exact Or.inr ⟨(List.append_nil _).symm, At.finished⟩
    | failed failure => exact hreached.not_failed.elim

theorem Reached.top {standing : Standing} (h : Reached l runtime docs (k + 1) ⊤ standing) :
    standing = .finished := by
  obtain ⟨frontier, hfrontier⟩ : ∃ frontier : Frontier κ, frontier = ⊤ := ⟨_, rfl⟩
  rw [← hfrontier] at h
  cases h with
  | finished => rfl
  | next a b _ _ _ _ _ => cases hfrontier

theorem At.document {docs : List α} {x : κ} {standing : Standing}
    (h : At l runtime docs (frontierAt x) standing) :
    ∃ a ∈ docs, l.sort a = x ∧ standing = .next (some (encodeCursor runtime (l.cursor a))) := by
  obtain ⟨frontier, hfrontier⟩ : ∃ frontier, frontier = frontierAt x := ⟨_, rfl⟩
  rw [← hfrontier] at h
  cases h with
  | finished => cases hfrontier
  | next a b ha _ _ _ _ =>
    exact ⟨a, ha, le_antisymm (frontierAt_le.mp hfrontier.le) (frontierAt_le.mp hfrontier.ge), rfl⟩

end

theorem count_id_le_one {items : List α} {id : String} {x : κ}
    (hitems : items.Pairwise fun a b => l.sort a < l.sort b)
    (hsort : ∀ a ∈ items, l.id a = id → l.sort a = x) : (items.map l.id).count id ≤ 1 := by
  rw [List.count, List.countP_map, List.countP_eq_length_filter]
  have hsame : ∀ a ∈ items.filter ((· == id) ∘ l.id), l.sort a = x := fun a ha => by
    obtain ⟨hmem, hid⟩ := List.mem_filter.mp ha
    exact hsort a hmem (by simpa using hid)
  exact length_le_one_of_sorted (hitems.filter _) hsame

/-- Where every document that another one follows has an accepted cursor,
paging is exact whatever changes between the requests. -/
theorem Lawful.pagesExactly (h : l.Lawful) (hlimit : 0 < limit) {docs : ℕ → Collection String α l.id}
    (hfollowable : ∀ j, l.Followable (l.Accepted runtime) (docs j).docs) :
    l.PagesExactly runtime limit docs := by
  have hwalk : ∀ k, (l.follow runtime limit (fun j => (docs j).docs) k).1 =
        (walk l.sort l.filter limit (fun j => (docs j).docs) k).1 ∧
      Reached l runtime docs k (walk l.sort l.filter limit (fun j => (docs j).docs) k).2
        (l.follow runtime limit (fun j => (docs j).docs) k).2 := fun k =>
    (h.follow_walk hlimit k).resolve_left fun hfailed => hfailed.2.elim fun j hj => hj (hfollowable j)
  have hprogress : ∀ k, Progress l.sort l.filter (fun j => (docs j).docs) k
      (walk l.sort l.filter limit (fun j => (docs j).docs) k) :=
    walk_progress (fun j => h.sort_nodup (docs j)) hlimit
  refine ⟨fun k failure hfailed => ?_, fun k => ?_, fun k id x hfinished hpresent => ?_,
    fun k id x hunchanged => ?_, fun unchanged hsame => ?_⟩
  · have hreached := (hwalk k).2
    rw [hfailed] at hreached
    exact hreached.not_failed
  · rw [(hwalk k).1]
    exact (hprogress k).increasing
  · have hreached := (hwalk k).2
    rw [hfinished] at hreached
    rw [(hwalk k).1]
    -- Whatever was received under this id is the document present at the time.
    have hsort : ∀ a ∈ (walk l.sort l.filter limit (fun j => (docs j).docs) k).1, l.id a = id →
        l.sort a = x := fun a ha hid => by
      obtain ⟨j, hj, hdocs, -⟩ := (hprogress k).origin a ha
      obtain ⟨b, hb, hbid, -, hbsort⟩ := hpresent j hj
      rw [← hbsort, List.inj_on_of_nodup_map (docs j).nodup hdocs hb (hid.trans hbid.symm)]
    refine le_antisymm (count_id_le_one (hprogress k).increasing hsort) ?_
    obtain ⟨a, ha, hax⟩ := (hprogress k).complete x
      (fun j hj => (hpresent j hj).imp fun b hb => ⟨hb.1, hb.2.2.1, hb.2.2.2⟩)
      (hreached.finished ▸ le_top)
    obtain ⟨j, hj, hdocs, -⟩ := (hprogress k).origin a ha
    obtain ⟨b, hb, hbid, -, hbsort⟩ := hpresent j hj
    have hid : l.id a = id := (h.id_of_sort a b (hax.trans hbsort.symm)).trans hbid
    exact List.count_pos_iff.mpr (List.mem_map.mpr ⟨a, ha, hid⟩)
  · have hsort : ∀ a ∈ (walk l.sort l.filter limit (fun j => (docs j).docs) k).1, l.id a = id →
        l.sort a = x := fun a ha hid => by
      obtain ⟨j, hj, hdocs, -⟩ := (hprogress k).origin a ha
      exact hunchanged j hj a hdocs hid
    rw [(hwalk k).1]
    exact count_id_le_one (hprogress k).increasing hsort
  · obtain rfl : docs = fun _ => unchanged := funext hsame
    refine ⟨(listed l.sort l.filter unchanged.docs).length + 1, ?_⟩
    have hends : walk l.sort l.filter limit (fun _ => unchanged.docs)
        ((listed l.sort l.filter unchanged.docs).length + 1) =
          (listed l.sort l.filter unchanged.docs, ⊤) := walk_ends (h.sort_nodup unchanged) hlimit
    obtain ⟨hitems, hreached⟩ := hwalk ((listed l.sort l.filter unchanged.docs).length + 1)
    rw [hends] at hitems hreached
    exact Prod.ext hitems hreached.top

/-- Paging by single documents comes to every cursor. -/
theorem Lawful.followable (h : l.Lawful) {docs : Collection String α l.id}
    (hpages : l.PagesExactly runtime 1 fun _ => docs) : l.Followable (l.Accepted runtime) docs.docs := by
  intro a ha hpasses b hb hbpasses hlt
  by_contra hrejected
  have hlisted : a ∈ listed l.sort l.filter docs.docs := mem_listed.mpr ⟨ha, hpasses⟩
  obtain ⟨front, rest, hsplit⟩ := List.append_of_mem hlisted
  have hsorted : (listed l.sort l.filter docs.docs).Pairwise fun a b => l.sort a < l.sort b :=
    listed_sorted (h.sort_nodup docs)
  have hmem : b ∈ listed l.sort l.filter docs.docs := mem_listed.mpr ⟨hb, hbpasses⟩
  obtain ⟨next, rest', hrest⟩ : ∃ next rest', rest = next :: rest' := by
    refine List.exists_cons_of_ne_nil fun hnil => ?_
    rw [hsplit, hnil, List.pairwise_append] at hsorted
    rw [hsplit, hnil] at hmem
    rcases List.mem_append.mp hmem with hmem | hmem
    · exact lt_asymm hlt (hsorted.2.2 b hmem a List.mem_cons_self)
    · rw [List.mem_singleton.mp hmem] at hlt
      exact lt_irrefl _ hlt
  have hsplit' : listed l.sort l.filter docs.docs = front ++ [a] ++ next :: rest' := by
    rw [hsplit, hrest, List.append_assoc, List.singleton_append]
  have hwalk := walk_single (h.sort_nodup docs) hsplit'
  have hreached : Reached l runtime (fun _ => docs) (front.length + 1)
      (walk l.sort l.filter 1 (fun _ => docs.docs) (front.length + 1)).2
      (l.follow runtime 1 (fun _ => docs.docs) (front.length + 1)).2 :=
    ((h.follow_walk Nat.one_pos (front.length + 1)).resolve_left fun hfailed =>
      hfailed.1.elim (hpages.answered _)).2
  rw [hwalk] at hreached
  obtain ⟨a', ha', hsort, hstanding⟩ := At.document hreached
  obtain rfl : a' = a := List.inj_on_of_nodup_map docs.nodup ha' ha (h.id_of_sort _ _ hsort)
  obtain ⟨failure, hafter⟩ := h.after_rejected hrejected
  refine hpages.answered (front.length + 2) failure ?_
  have hpage : l.page runtime 1 (some (encodeCursor runtime (l.cursor a'))) docs.docs = .error failure := by
    rw [page, hafter]
    rfl
  rw [follow_succ]
  simp only [advance, hstanding, hpage]

/-- Paging is exact where every document that another one follows is of a kind,
and of unchanged collections only there. -/
structure ExactWhere (l : Listing α κ γ) (runtime : Runtime) (kind : α → Prop) : Prop where
  changing : ∀ limit, 1 ≤ limit → limit ≤ maxPageSize → ∀ docs : ℕ → Collection String α l.id,
    (∀ j, l.Followable kind (docs j).docs) → l.PagesExactly runtime limit docs
  unchanged : ∀ docs : Collection String α l.id,
    (∀ limit, 1 ≤ limit → limit ≤ maxPageSize → l.PagesExactly runtime limit fun _ => docs) ↔
      l.Followable kind docs.docs

theorem Lawful.exactWhere (h : l.Lawful) {kind : α → Prop} (hkind : ∀ a, l.Accepted runtime a ↔ kind a) :
    l.ExactWhere runtime kind := by
  obtain rfl : l.Accepted runtime = kind := funext fun a => propext (hkind a)
  refine ⟨fun limit hlimit _ docs => h.pagesExactly hlimit, fun docs => ⟨fun hpages => ?_, ?_⟩⟩
  · exact h.followable (hpages 1 le_rfl (by decide))
  · exact fun hfollowable limit hlimit _ => h.pagesExactly hlimit fun _ => hfollowable

end Listing

end CkbDex.Pagination
