import Mathlib.Algebra.Order.Ring.Rat
import Mathlib.Algebra.Order.Group.Int
import Mathlib.Algebra.BigOperators.Group.List.Basic
import Mathlib.Data.List.Chain
import Mathlib.Data.List.Sort
import Mathlib.Tactic.Linarith
import Mathlib.Tactic.Ring

/-!
# Candles

The chart's candles: trades are sorted into buckets of equal length that end
with the bucket of the present, and each bucket becomes a candle. Times are
integers and prices and amounts are exact.
-/
namespace CkbDex.Candles

structure Trade where
  price : ℚ
  amount : ℚ
  time : ℤ
  deriving DecidableEq, Repr

structure Candle where
  time : ℤ
  o : ℚ
  h : ℚ
  l : ℚ
  c : ℚ
  v : ℚ
  trades : Option ℕ := none
  deriving DecidableEq, Repr

structure Chart where
  candles : List Candle
  start : ℤ
  bucket : ℤ
  count : Option ℕ := none
  deriving DecidableEq, Repr

def hour : ℤ := 3600000
def day : ℤ := 24 * hour

structure Range where
  span : ℤ
  bucket : ℤ

/-- `RANGES`. Any other range is sized from the data, as `ALL` is. -/
def ranges (range : String) : Option Range :=
  if range = "1D" then some ⟨day, hour⟩
  else if range = "7D" then some ⟨7 * day, 6 * hour⟩
  else if range = "1M" then some ⟨30 * day, day⟩
  else none

/-- `Math.ceil(a / b)` -/
def ceilDiv (a b : ℤ) : ℤ := -(-a / b)

/-- The window that shows everything since a time. -/
def sized (first now : ℤ) : Range :=
  let span := max hour (now - first)
  ⟨span, max hour (ceilDiv span (40 * hour) * hour)⟩

def byTime (trades : List Trade) : List Trade := trades.insertionSort fun a b => a.time ≤ b.time

def volume (trades : List Trade) : ℚ := (trades.map Trade.amount).sum

/-- The candles of buckets, given by their times and their trades. A bucket
without trades repeats the last close, if there is one. -/
def candlesFrom : Option ℚ → List (ℤ × List Trade) → List Candle
  | _, [] => []
  | prevClose, (time, []) :: rest =>
      match prevClose with
      | none => candlesFrom none rest
      | some close =>
          { time, o := close, h := close, l := close, c := close, v := 0 } :: candlesFrom prevClose rest
  | prevClose, (time, first :: more) :: rest =>
      let items := first :: more
      let o := prevClose.getD first.price
      let c := (more.getLastD first).price
      { time, o, c
        h := items.foldl (fun h trade => max h trade.price) o
        l := items.foldl (fun l trade => min l trade.price) o
        v := (items.map Trade.amount).sum
        trades := some items.length } :: candlesFrom (some c) rest

section
variable (asc : List Trade) (start bucket : ℤ)

/-- The last price before the window. -/
def seed : Option ℚ := (asc.takeWhile fun trade => trade.time < start).getLast?.map Trade.price

/-- The trades of one bucket. -/
def itemsOf (i : ℕ) : List Trade := asc.filter fun trade => (trade.time - start) / bucket = i

def slots (count : ℕ) : List (ℤ × List Trade) :=
  (List.range count).map fun i : ℕ => (start + (i : ℤ) * bucket, itemsOf asc start bucket i)

end

/-- The bucket after the one that ends `count` buckets before the present's. -/
def windowStart (now bucket : ℤ) (count : ℕ) : ℤ :=
  (now - count * bucket) / bucket * bucket + bucket

def buildCandles (trades : List Trade) (range : String) (now : ℤ) : Chart :=
  match byTime trades with
  | [] => { candles := [], start := now, bucket := hour }
  | first :: rest =>
      let asc := first :: rest
      let window := (ranges range).getD (sized first.time now)
      let count := (ceilDiv window.span window.bucket).toNat
      let start := windowStart now window.bucket count
      { candles := candlesFrom (seed asc start) (slots asc start window.bucket count)
        start
        bucket := window.bucket
        count := some count }

section
variable {prevClose : Option ℚ} {buckets : List (ℤ × List Trade)}

theorem times_candlesFrom (prevClose : Option ℚ) (buckets : List (ℤ × List Trade)) :
    ((candlesFrom prevClose buckets).map Candle.time).Sublist (buckets.map Prod.fst) := by
  fun_induction candlesFrom prevClose buckets with
  | case1 prevClose => exact .slnil
  | case2 time rest ih => exact ih.cons time
  | case3 time rest close ih => exact ih.cons_cons time
  | case4 prevClose time first more rest items o c ih => exact ih.cons_cons time

theorem le_foldl_max (items : List Trade) (o : ℚ) :
    o ≤ items.foldl (fun h trade => max h trade.price) o ∧
      ∀ trade ∈ items, trade.price ≤ items.foldl (fun h trade => max h trade.price) o := by
  induction items generalizing o with
  | nil => exact ⟨le_refl o, by simp⟩
  | cons trade items ih =>
      obtain ⟨hfirst, hrest⟩ := ih (max o trade.price)
      refine ⟨le_trans (le_max_left _ _) hfirst, ?_⟩
      intro other hmem
      rcases List.mem_cons.mp hmem with rfl | hmem
      · exact le_trans (le_max_right _ _) hfirst
      · exact hrest other hmem

theorem foldl_min_le (items : List Trade) (o : ℚ) :
    items.foldl (fun l trade => min l trade.price) o ≤ o ∧
      ∀ trade ∈ items, items.foldl (fun l trade => min l trade.price) o ≤ trade.price := by
  induction items generalizing o with
  | nil => exact ⟨le_refl o, by simp⟩
  | cons trade items ih =>
      obtain ⟨hfirst, hrest⟩ := ih (min o trade.price)
      refine ⟨le_trans hfirst (min_le_left _ _), ?_⟩
      intro other hmem
      rcases List.mem_cons.mp hmem with rfl | hmem
      · exact le_trans hfirst (min_le_right _ _)
      · exact hrest other hmem

theorem last_mem (first : Trade) (more : List Trade) : more.getLastD first ∈ first :: more := by
  induction more generalizing first with
  | nil => exact List.mem_singleton_self first
  | cons second more ih =>
      rw [List.getLastD_cons]
      exact List.mem_cons_of_mem _ (ih second)

/-- A candle spans its opening and its closing price. -/
theorem spans_candlesFrom {candle : Candle} (h : candle ∈ candlesFrom prevClose buckets) :
    candle.l ≤ min candle.o candle.c ∧ max candle.o candle.c ≤ candle.h := by
  fun_induction candlesFrom prevClose buckets with
  | case1 prevClose => cases h
  | case2 time rest ih => exact ih h
  | case3 time rest close ih =>
      rcases List.mem_cons.mp h with rfl | h
      · simp
      · exact ih h
  | case4 prevClose time first more rest items o c ih =>
      rcases List.mem_cons.mp h with rfl | h
      · have hlast := last_mem first more
        have hmax := le_foldl_max items o
        have hmin := foldl_min_le items o
        exact ⟨le_min hmin.1 (hmin.2 _ hlast), max_le hmax.1 (hmax.2 _ hlast)⟩
      · exact ih h

/-- A candle opens at the close before it. -/
theorem opens_candlesFrom (prevClose : Option ℚ) (buckets : List (ℤ × List Trade)) :
    (candlesFrom prevClose buckets).IsChain (fun earlier later => later.o = earlier.c) ∧
      ∀ close, prevClose = some close → ∀ candle, (candlesFrom prevClose buckets).head? = some candle →
        candle.o = close := by
  fun_induction candlesFrom prevClose buckets with
  | case1 prevClose => exact ⟨.nil, by simp⟩
  | case2 time rest ih => exact ⟨ih.1, by simp⟩
  | case3 time rest close ih =>
      refine ⟨?_, ?_⟩
      · exact List.isChain_cons.mpr ⟨fun candle hmem => ih.2 close rfl candle hmem, ih.1⟩
      · rintro _ ⟨⟩ _ ⟨⟩
        rfl
  | case4 prevClose time first more rest items o c ih =>
      refine ⟨?_, ?_⟩
      · exact List.isChain_cons.mpr ⟨fun candle hmem => ih.2 c rfl candle hmem, ih.1⟩
      · rintro close rfl _ ⟨⟩
        rfl

/-- A bucket with trades has a candle. -/
theorem exists_candle {time : ℤ} {items : List Trade} (h : (time, items) ∈ buckets) (hne : items ≠ []) :
    ∃ candle ∈ candlesFrom prevClose buckets, candle.time = time := by
  fun_induction candlesFrom prevClose buckets with
  | case1 prevClose => cases h
  | case2 time' rest ih =>
      rcases List.mem_cons.mp h with hsame | h
      · exact absurd (congrArg Prod.snd hsame) hne
      · exact ih h
  | case3 time' rest close ih =>
      rcases List.mem_cons.mp h with hsame | h
      · exact absurd (congrArg Prod.snd hsame) hne
      · obtain ⟨candle, hmem, htime⟩ := ih h
        exact ⟨candle, List.mem_cons_of_mem _ hmem, htime⟩
  | case4 prevClose time' first more rest items' o c ih =>
      rcases List.mem_cons.mp h with hsame | h
      · exact ⟨_, List.mem_cons_self, (congrArg Prod.fst hsame).symm⟩
      · obtain ⟨candle, hmem, htime⟩ := ih h
        exact ⟨candle, List.mem_cons_of_mem _ hmem, htime⟩

/-- The candles hold what their buckets hold. -/
theorem volume_candlesFrom (prevClose : Option ℚ) (buckets : List (ℤ × List Trade)) :
    ((candlesFrom prevClose buckets).map Candle.v).sum =
      (buckets.map fun bucket => volume bucket.2).sum := by
  fun_induction candlesFrom prevClose buckets with
  | case1 prevClose => rfl
  | case2 time rest ih => simp [volume, ih]
  | case3 time rest close ih => simp [volume, ih]
  | case4 prevClose time first more rest items o c ih =>
      rw [List.map_cons, List.sum_cons, List.map_cons, List.sum_cons, ih]
      rfl

theorem volume_of_mem {candle : Candle} (h : candle ∈ candlesFrom prevClose buckets) :
    ∃ items, (candle.time, items) ∈ buckets ∧ candle.v = volume items := by
  fun_induction candlesFrom prevClose buckets with
  | case1 prevClose => cases h
  | case2 time rest ih =>
      obtain ⟨items, hmem, hv⟩ := ih h
      exact ⟨items, List.mem_cons_of_mem _ hmem, hv⟩
  | case3 time rest close ih =>
      rcases List.mem_cons.mp h with rfl | h
      · exact ⟨[], List.mem_cons_self, rfl⟩
      · obtain ⟨items, hmem, hv⟩ := ih h
        exact ⟨items, List.mem_cons_of_mem _ hmem, hv⟩
  | case4 prevClose time first more rest items o c ih =>
      rcases List.mem_cons.mp h with rfl | h
      · exact ⟨items, List.mem_cons_self, rfl⟩
      · obtain ⟨items, hmem, hv⟩ := ih h
        exact ⟨items, List.mem_cons_of_mem _ hmem, hv⟩

end

section
variable {now bucket time : ℤ} {count : ℕ}

theorem windowStart_eq (hbucket : 0 < bucket) :
    windowStart now bucket count = (now / bucket - count + 1) * bucket := by
  unfold windowStart
  rw [Int.sub_mul_ediv_right now count hbucket.ne']
  ring

/-- Nothing of the past lies after the last bucket. -/
theorem slot_lt (hbucket : 0 < bucket) (htime : time ≤ now) :
    (time - windowStart now bucket count) / bucket < count := by
  rw [Int.ediv_lt_iff_lt_mul hbucket, windowStart_eq hbucket]
  have hnow := Int.ediv_mul_add_emod now bucket
  have hoffset := Int.emod_lt_of_pos now hbucket
  have hstart : (now / bucket - count + 1) * bucket = now / bucket * bucket - count * bucket + bucket := by
    ring
  linarith

theorem slot_nonneg {start : ℤ} (hbucket : 0 < bucket) : 0 ≤ (time - start) / bucket ↔ start ≤ time := by
  rw [Int.ediv_nonneg_iff_of_pos hbucket, sub_nonneg]

theorem slot_eq {start : ℤ} (hbucket : 0 < bucket) (i : ℕ) :
    (time - start) / bucket = i ↔ start + i * bucket ≤ time ∧ time < start + i * bucket + bucket := by
  rw [Int.ediv_eq_iff_of_pos hbucket]
  constructor <;> rintro ⟨hfrom, hto⟩ <;> constructor <;> linarith

/-- A time is in the window when fewer whole buckets separate it from the present
than fit into the span. -/
theorem windowStart_le_iff (hbucket : 0 < bucket) {span : ℤ} (hspan : 0 < span) :
    windowStart now bucket (ceilDiv span bucket).toNat ≤ time ↔
      (now / bucket - time / bucket) * bucket < span := by
  have hcount : 0 < ceilDiv span bucket := by
    have hneg := Int.ediv_neg_of_neg_of_pos (neg_lt_zero.mpr hspan) hbucket
    unfold ceilDiv
    omega
  rw [windowStart_eq hbucket, Int.toNat_of_nonneg hcount.le, ← Int.le_ediv_iff_mul_le hbucket]
  have hround : -span / bucket < -(now / bucket - time / bucket) ↔
      (now / bucket - time / bucket) * bucket < span := by
    rw [Int.ediv_lt_iff_lt_mul hbucket, neg_mul, neg_lt_neg_iff]
  rw [← hround]
  unfold ceilDiv
  omega

/-- The bucket that fits the trades since a time. -/
def sizedBucket (first now : ℤ) : ℤ := max hour (ceilDiv (now - first) (40 * hour) * hour)

theorem sized_bucket (first now : ℤ) : (sized first now).bucket = sizedBucket first now := by
  show max hour (ceilDiv (max hour (now - first)) (40 * hour) * hour) = _
  unfold sizedBucket ceilDiv hour
  omega

/-- A time is in the bucket of the present, or earlier in its bucket than the
present is in its own. -/
def Aligned (first now : ℤ) : Prop :=
  let bucket := sizedBucket first now
  now / bucket = first / bucket ∨ first % bucket < now % bucket

theorem sizedBucket_pos (first now : ℤ) : hour ≤ sizedBucket first now := le_max_left _ _

/-- The sized window begins no later than its first trade exactly when that trade
is aligned with the present. -/
theorem sized_iff {first : ℤ} (hfirst : first ≤ now) :
    windowStart now (sized first now).bucket
        (ceilDiv (sized first now).span (sized first now).bucket).toNat ≤ first ↔ Aligned first now := by
  have hhour : 0 < hour := by unfold hour; omega
  have hwide := sizedBucket_pos first now
  have hbucket := hhour.trans_le hwide
  have hspan : 0 < (sized first now).span := lt_max_of_lt_left hhour
  rw [sized_bucket, windowStart_le_iff hbucket hspan]
  show _ < max hour (now - first) ↔ _
  rw [lt_max_iff]
  apply or_congr
  · have hmono : first / sizedBucket first now ≤ now / sizedBucket first now :=
      Int.ediv_le_ediv hbucket hfirst
    constructor
    · intro hshort
      by_contra hne
      have hnext : 1 ≤ now / sizedBucket first now - first / sizedBucket first now := by omega
      have hlong := Int.mul_le_mul_of_nonneg_right hnext hbucket.le
      linarith
    · intro hsame
      rw [hsame, sub_self, zero_mul]
      exact hhour
  · have hnow := Int.ediv_mul_add_emod now (sizedBucket first now)
    have hthen := Int.ediv_mul_add_emod first (sizedBucket first now)
    rw [sub_mul]
    constructor
    · intro hless
      linarith
    · intro hless
      linarith

end

section
variable (trades : List Trade)

theorem volume_or {p q : Trade → Bool} (hdisjoint : ∀ trade, p trade → q trade = false) :
    volume (trades.filter fun trade => p trade || q trade) =
      volume (trades.filter p) + volume (trades.filter q) := by
  unfold volume
  induction trades with
  | nil => exact (add_zero _).symm
  | cons trade trades ih =>
      cases hp : p trade with
      | true =>
          have hq := hdisjoint trade hp
          simp only [List.filter_cons, hp, hq, Bool.or_false, if_true, Bool.false_eq_true, if_false,
            List.map_cons, List.sum_cons, ih, add_assoc]
      | false =>
          cases hq : q trade with
          | true =>
              simp only [List.filter_cons, hp, hq, Bool.or_true, if_true, Bool.false_eq_true, if_false,
                List.map_cons, List.sum_cons, ih]
              ring
          | false =>
              simp only [List.filter_cons, hp, hq, Bool.or_false, Bool.false_eq_true, if_false, ih]

/-- Trades with slots below a bound lie in the slots up to it. -/
theorem volume_slots (start bucket : ℤ) (count : ℕ) :
    ((slots trades start bucket count).map fun slot => volume slot.2).sum =
      volume (trades.filter fun trade =>
        0 ≤ (trade.time - start) / bucket ∧ (trade.time - start) / bucket < count) := by
  induction count with
  | zero =>
      rw [List.filter_eq_nil_iff.mpr]
      · rfl
      · intro trade hmem hslot
        have hslot := of_decide_eq_true hslot
        omega
  | succ count ih =>
      have hsplit : slots trades start bucket (count + 1) =
          slots trades start bucket count ++
            [(start + (count : ℤ) * bucket, itemsOf trades start bucket count)] := by
        unfold slots
        rw [List.range_succ, List.map_append]
        rfl
      rw [hsplit, List.map_append, List.sum_append, ih]
      simp only [List.map_cons, List.map_nil, List.sum_cons, List.sum_nil, add_zero]
      show _ + volume (trades.filter fun trade => (trade.time - start) / bucket = count) = _
      rw [← volume_or trades]
      · congr 1
        apply List.filter_congr
        intro trade hmem
        rw [← Bool.decide_or, decide_eq_decide]
        push_cast
        omega
      · intro trade hslot
        have hslot := of_decide_eq_true hslot
        apply decide_eq_false
        omega

theorem volume_perm {trades others : List Trade} (h : trades.Perm others) : volume trades = volume others :=
  (h.map Trade.amount).sum_eq

end

/-- A candle and the times in its bucket. -/
def Candle.covers (bucket : ℤ) (candle : Candle) (time : ℤ) : Prop :=
  candle.time ≤ time ∧ time < candle.time + bucket

instance (bucket : ℤ) (candle : Candle) (time : ℤ) : Decidable (candle.covers bucket time) :=
  inferInstanceAs (Decidable (_ ∧ _))

/-- What a chart says of the trades in its window. -/
structure Accounts (trades : List Trade) (chart : Chart) : Prop where
  increasing : chart.candles.Pairwise fun earlier later => earlier.time < later.time
  onGrid : ∀ candle ∈ chart.candles, ∃ i : ℕ, candle.time = chart.start + i * chart.bucket
  spans : ∀ candle ∈ chart.candles,
    candle.l ≤ min candle.o candle.c ∧ max candle.o candle.c ≤ candle.h
  opens : chart.candles.IsChain fun earlier later => later.o = earlier.c
  falls : ∀ trade ∈ trades, chart.start ≤ trade.time →
    ∃! candle, candle ∈ chart.candles ∧ candle.covers chart.bucket trade.time
  holds : ∀ candle ∈ chart.candles,
    candle.v = volume (trades.filter fun trade => candle.covers chart.bucket trade.time)
  total : (chart.candles.map Candle.v).sum =
    volume (trades.filter fun trade => chart.start ≤ trade.time)

/-- What a chart of all trades says on top. -/
structure Complete (trades : List Trade) (chart : Chart) : Prop where
  falls : ∀ trade ∈ trades, ∃ candle ∈ chart.candles, candle.covers chart.bucket trade.time
  total : (chart.candles.map Candle.v).sum = volume trades

section
variable {trades asc : List Trade} {now bucket : ℤ} {count : ℕ} {candles : List Candle}

/-- The chart of a window of a positive number of buckets. -/
def chartOf (asc : List Trade) (now bucket : ℤ) (count : ℕ) : Chart :=
  let start := windowStart now bucket count
  { candles := candlesFrom (seed asc start) (slots asc start bucket count)
    start
    bucket
    count := some count }

theorem mem_slots {start : ℤ} {slot : ℤ × List Trade} (h : slot ∈ slots asc start bucket count) :
    ∃ i : ℕ, slot = (start + i * bucket, itemsOf asc start bucket i) := by
  obtain ⟨i, hmem, hslot⟩ := List.mem_map.mp h
  exact ⟨i, hslot.symm⟩

theorem slots_increasing {start : ℤ} (hbucket : 0 < bucket) :
    ((slots asc start bucket count).map Prod.fst).Pairwise (· < ·) := by
  unfold slots
  rw [List.map_map, List.pairwise_map]
  apply List.pairwise_lt_range.imp
  intro i j hlt
  have hscaled : (i : ℤ) * bucket < j * bucket :=
    mul_lt_mul_of_pos_right (Int.ofNat_lt.mpr hlt) hbucket
  exact add_lt_add_right hscaled start

theorem covers_unique {start : ℤ} (hbucket : 0 < bucket) {i j : ℕ} {time : ℤ}
    (hi : start + i * bucket ≤ time ∧ time < start + i * bucket + bucket)
    (hj : start + j * bucket ≤ time ∧ time < start + j * bucket + bucket) : i = j := by
  have hslot := ((slot_eq hbucket i).mpr hi).symm.trans ((slot_eq hbucket j).mpr hj)
  exact Int.ofNat_inj.mp hslot

theorem candle_slot {prevClose : Option ℚ} {start : ℤ} {candle : Candle}
    (h : candle ∈ candlesFrom prevClose (slots asc start bucket count)) :
    ∃ i : ℕ, candle.time = start + i * bucket ∧ candle.v = volume (itemsOf asc start bucket i) := by
  obtain ⟨items, hmem, hv⟩ := volume_of_mem h
  obtain ⟨i, hslot⟩ := mem_slots hmem
  have htime := congrArg Prod.fst hslot
  have hitems : items = itemsOf asc start bucket i := congrArg Prod.snd hslot
  exact ⟨i, htime, hitems ▸ hv⟩

theorem slot_candle {prevClose : Option ℚ} {start : ℤ} (hbucket : 0 < bucket) {trade : Trade}
    (hmem : trade ∈ asc) {i : ℕ} (hi : i < count)
    (hslot : start + i * bucket ≤ trade.time ∧ trade.time < start + i * bucket + bucket) :
    ∃ candle ∈ candlesFrom prevClose (slots asc start bucket count), candle.time = start + i * bucket := by
  have hslots : (start + (i : ℤ) * bucket, itemsOf asc start bucket i) ∈ slots asc start bucket count :=
    List.mem_map.mpr ⟨i, List.mem_range.mpr hi, rfl⟩
  have hitems : trade ∈ itemsOf asc start bucket i :=
    List.mem_filter.mpr ⟨hmem, decide_eq_true ((slot_eq hbucket i).mpr hslot)⟩
  exact exists_candle hslots (List.ne_nil_of_mem hitems)

/-- A window accounts for the trades in it. -/
theorem accounts_chartOf (hperm : asc.Perm trades) (hbucket : 0 < bucket)
    (hpast : ∀ trade ∈ trades, trade.time ≤ now) : Accounts trades (chartOf asc now bucket count) := by
  have hincreasing : (chartOf asc now bucket count).candles.Pairwise
      fun earlier later => earlier.time < later.time := by
    have htimes := (slots_increasing hbucket).sublist
      (times_candlesFrom (seed asc (windowStart now bucket count))
        (slots asc (windowStart now bucket count) bucket count))
    exact List.pairwise_map.mp htimes
  constructor
  · exact hincreasing
  · intro candle hmem
    obtain ⟨i, htime, -⟩ := candle_slot hmem
    exact ⟨i, htime⟩
  · intro candle hmem
    exact spans_candlesFrom hmem
  · exact (opens_candlesFrom _ _).1
  · intro trade hmem hstart
    have hlt : _ < (count : ℤ) := slot_lt hbucket (hpast trade hmem)
    have hnonneg := (slot_nonneg hbucket).mpr hstart
    obtain ⟨i, hi⟩ := Int.eq_ofNat_of_zero_le hnonneg
    have hslot := (slot_eq hbucket i).mp hi
    have hcount : i < count := Int.ofNat_lt.mp (hi ▸ hlt)
    obtain ⟨candle, hcandle, htime⟩ := slot_candle hbucket (hperm.mem_iff.mpr hmem) hcount hslot
    apply ExistsUnique.intro candle
    · refine ⟨hcandle, ?_⟩
      unfold Candle.covers
      rw [htime]
      exact hslot
    · intro other hother
      obtain ⟨j, htime', -⟩ := candle_slot hother.1
      have hsame : j = i := covers_unique hbucket (htime' ▸ hother.2) hslot
      have hdistinct : ((chartOf asc now bucket count).candles.map Candle.time).Nodup :=
        (List.pairwise_map.mpr hincreasing).imp ne_of_lt
      apply List.inj_on_of_nodup_map hdistinct hother.1 hcandle
      rw [htime, htime', hsame]
      rfl
  · intro candle hmem
    obtain ⟨i, htime, hv⟩ := candle_slot hmem
    rw [hv, ← volume_perm (hperm.filter _)]
    congr 1
    apply List.filter_congr
    intro trade htrade
    rw [decide_eq_decide, slot_eq hbucket, ← htime]
    rfl
  · show (List.map Candle.v (candlesFrom _ _)).sum = _
    rw [volume_candlesFrom, volume_slots, ← volume_perm (hperm.filter _)]
    congr 1
    apply List.filter_congr
    intro trade htrade
    have hlt : _ < (count : ℤ) := slot_lt hbucket (hpast trade (hperm.mem_iff.mp htrade))
    rw [decide_eq_decide, slot_nonneg hbucket]
    exact and_iff_left hlt

/-- A chart of all trades is one that begins no later than the first. -/
theorem complete_iff {chart : Chart} (haccounts : Accounts trades chart) (hbucket : 0 < chart.bucket)
    {first : Trade} (hmem : first ∈ trades) (hfirst : ∀ trade ∈ trades, first.time ≤ trade.time) :
    Complete trades chart ↔ chart.start ≤ first.time := by
  constructor
  · intro hcomplete
    obtain ⟨candle, hcandle, hfrom, -⟩ := hcomplete.falls first hmem
    obtain ⟨i, htime⟩ := haccounts.onGrid candle hcandle
    have hoffset : 0 ≤ (i : ℤ) * chart.bucket := mul_nonneg (Int.natCast_nonneg i) hbucket.le
    linarith
  · intro hstart
    have hinside : ∀ trade ∈ trades, chart.start ≤ trade.time := fun trade htrade =>
      hstart.trans (hfirst trade htrade)
    constructor
    · intro trade htrade
      exact (haccounts.falls trade htrade (hinside trade htrade)).exists
    · rw [haccounts.total, List.filter_eq_self.mpr]
      intro trade htrade
      exact decide_eq_true (hinside trade htrade)

end

theorem buildCandles_eq {trades : List Trade} (hne : trades ≠ []) (range : String) (now : ℤ) :
    ∃ first ∈ trades, (∀ trade ∈ trades, first.time ≤ trade.time) ∧
      let window := (ranges range).getD (sized first.time now)
      buildCandles trades range now =
        chartOf (byTime trades) now window.bucket (ceilDiv window.span window.bucket).toNat := by
  have hperm : (byTime trades).Perm trades := List.perm_insertionSort _ trades
  have hsorted : (byTime trades).Pairwise fun a b => a.time ≤ b.time :=
    List.pairwise_insertionSort _ trades
  cases hasc : byTime trades with
  | nil =>
      rw [hasc] at hperm
      exact absurd hperm.nil_eq.symm hne
  | cons first rest =>
      rw [hasc] at hperm hsorted
      apply Exists.intro first
      apply And.intro (hperm.mem_iff.mp List.mem_cons_self)
      constructor
      · intro trade hmem
        rcases List.mem_cons.mp (hperm.mem_iff.mpr hmem) with rfl | hrest
        · exact le_refl _
        · exact (List.pairwise_cons.mp hsorted).1 trade hrest
      · unfold buildCandles
        rw [hasc]
        rfl

theorem ranges_pos {range : String} {window : Range} (h : ranges range = some window) :
    0 < window.span ∧ 0 < window.bucket := by
  unfold ranges at h
  split_ifs at h
  all_goals
    cases h
    decide

theorem sized_pos (first now : ℤ) : 0 < (sized first now).span ∧ 0 < (sized first now).bucket := by
  have hhour : 0 < hour := by unfold hour; omega
  exact ⟨lt_max_of_lt_left hhour, lt_max_of_lt_left hhour⟩

/-- Every chart accounts for the trades of its window, and the chart of all trades
is complete exactly when the earliest of them is aligned with the present. -/
theorem charts_account_iff {trades : List Trade} (hne : trades ≠ []) (range : String) {now : ℤ}
    (hpast : ∀ trade ∈ trades, trade.time ≤ now) :
    (Accounts trades (buildCandles trades range now) ∧
      (range = "ALL" → Complete trades (buildCandles trades range now))) ↔
    (range = "ALL" → ∀ first ∈ trades, (∀ trade ∈ trades, first.time ≤ trade.time) →
      Aligned first.time now) := by
  obtain ⟨first, hmem, hfirst, hchart⟩ := buildCandles_eq hne range now
  have hperm : (byTime trades).Perm trades := List.perm_insertionSort _ trades
  have hbucket : 0 < ((ranges range).getD (sized first.time now)).bucket := by
    cases hrange : ranges range with
    | none => exact (sized_pos first.time now).2
    | some window => exact (ranges_pos hrange).2
  have haccounts : Accounts trades (buildCandles trades range now) := by
    rw [hchart]
    exact accounts_chartOf hperm hbucket hpast
  have hcomplete : range = "ALL" →
      (Complete trades (buildCandles trades range now) ↔ Aligned first.time now) := by
    intro hall
    have hnone : ranges range = none := by
      rw [hall]
      rfl
    rw [hnone] at hchart
    have hstart : (buildCandles trades range now).start =
        windowStart now (sized first.time now).bucket
          (ceilDiv (sized first.time now).span (sized first.time now).bucket).toNat := by
      rw [hchart]
      rfl
    rw [complete_iff haccounts (by rw [hchart]; exact (sized_pos first.time now).2) hmem hfirst, hstart]
    exact sized_iff (hpast first hmem)
  constructor
  · intro hholds hall first' hmem' hfirst'
    have hsame : first'.time = first.time := le_antisymm (hfirst' first hmem) (hfirst first' hmem')
    rw [hsame]
    exact (hcomplete hall).mp (hholds.2 hall)
  · intro haligned
    apply And.intro haccounts
    intro hall
    exact (hcomplete hall).mpr (haligned hall first hmem hfirst)

/-- The newest trade first, as the backend lists them. -/
def exampleTrades : List Trade := [⟨3 / 4, 2, 38000000⟩, ⟨1 / 4, 1, 36500000⟩, ⟨1 / 2, 5, 35100000⟩]

/-- Three trades since a quarter to ten, seen at ten to eleven. -/
theorem charts_account_iff_example :
    Accounts exampleTrades (buildCandles exampleTrades "ALL" 39000000) ∧
    Complete exampleTrades (buildCandles exampleTrades "ALL" 39000000) := by
  have hpast : ∀ trade ∈ exampleTrades, trade.time ≤ 39000000 := by decide
  have haligned : ∀ first ∈ exampleTrades, (∀ trade ∈ exampleTrades, first.time ≤ trade.time) →
      Aligned first.time 39000000 := by
    have hfirst : Aligned 35100000 39000000 := by
      unfold Aligned
      decide
    intro first hmem hearliest
    have hlast : (⟨1 / 2, 5, 35100000⟩ : Trade) ∈ exampleTrades := by simp [exampleTrades]
    have hsame : first.time = 35100000 := by
      have hle : first.time ≤ 35100000 := hearliest _ hlast
      have hge : ∀ trade ∈ exampleTrades, 35100000 ≤ trade.time := by decide
      exact le_antisymm hle (hge first hmem)
    rw [hsame]
    exact hfirst
  obtain ⟨haccounts, hcomplete⟩ :=
    (charts_account_iff (List.cons_ne_nil _ _) "ALL" hpast).mpr fun _ => haligned
  exact ⟨haccounts, hcomplete rfl⟩

/-- A quarter of an hour before the hour, seen ten minutes past it, a trade has no
candle. -/
theorem first_trade_dropped :
    ∃ trades : List Trade, ∃ now, trades ≠ [] ∧ (∀ trade ∈ trades, trade.time ≤ now) ∧
      (buildCandles trades "ALL" now).candles =
        [{ time := 36000000, o := 1 / 2, h := 1 / 2, l := 1 / 2, c := 1 / 2, v := 0 }] ∧
      ¬ Complete trades (buildCandles trades "ALL" now) := by
  have hcandles : (buildCandles [⟨1 / 2, 5, 35100000⟩] "ALL" 36600000).candles =
      [{ time := 36000000, o := 1 / 2, h := 1 / 2, l := 1 / 2, c := 1 / 2, v := 0 }] := by rfl
  refine ⟨[⟨1 / 2, 5, 35100000⟩], 36600000, List.cons_ne_nil _ _, ?_, hcandles, ?_⟩
  · intro trade hmem
    cases List.mem_singleton.mp hmem
    decide
  · intro hcomplete
    have htotal := hcomplete.total
    rw [hcandles] at htotal
    simp [volume] at htotal

end CkbDex.Candles
