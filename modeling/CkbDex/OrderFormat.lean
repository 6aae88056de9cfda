import CkbDex.Documents
import Mathlib.Data.Nat.Digits.Lemmas

/-!
# One order format

The order args as four programs write and read them: the contract, the backend,
the offchain script and the user interface. The conversion of a number to bytes
belongs to the client library and is a parameter.
-/
namespace CkbDex.OrderFormat
open Checked Bytes CellContext OrderLock OrderLockRules Text Documents

structure OrderTerms where
  side : ℕ
  makerLockHash : Hex
  xudtTypeHash : Hex
  amount : ℕ
  price : ℕ
  deriving DecidableEq, Repr

def readOrderTerms (lock : Script) : Except Failure OrderTerms := do
  let args := lock.args
  let got := args.length
  throwIf (got ≠ 90) (.other s!"Expected 90-byte DEX args, got {got}")
  let version := (args.getD 0 0).toNat
  throwIf (version ≠ 1) (.other s!"Unsupported DEX order version: {version}")
  let side := (args.getD 1 0).toNat
  throwIf (side ≠ 0 ∧ side ≠ 1) (.other s!"Unknown DEX order side: {side}")
  return {
    side
    makerLockHash := toHex (slice args 2 34)
    xudtTypeHash := toHex (slice args 34 66)
    amount := ofLe (slice args 66 82)
    price := ofLe (slice args 82 90) }

/-- The contract's terms as the offchain script reads them. -/
def termsOf (order : OrderArgs) : OrderTerms where
  side := order.side.toNat
  makerLockHash := hashText order.makerLockHash
  xudtTypeHash := hashText order.xudtTypeHash
  amount := order.tokenAmount.toNat
  price := order.price.toNat

/-- The backend and the offchain script test and slice the args alike. -/
theorem readOrderTerms_eq_ok {lock : Script} {terms : OrderTerms} :
    readOrderTerms lock = .ok terms ↔
      ∃ order, parseOrderArgs lock.args = .ok order ∧ terms = termsOf order := by
  simp only [readOrderTerms, bind_eq_ok, throwIf_eq_ok]
  simp only [exists_const, not_not]
  have hread : ∀ {args : List Byte} {order : OrderArgs}, Declares args order →
      OrderTerms.mk (args.getD 1 0).toNat (toHex (slice args 2 34)) (toHex (slice args 34 66))
        (ofLe (slice args 66 82)) (ofLe (slice args 82 90)) = termsOf order := by
    intro args order hd
    simp only [termsOf, hd.side_byte, hd.maker, hd.token, hd.amount, hd.price, hashText]
  constructor
  · rintro ⟨hlen, hver, hside, hd⟩
    obtain ⟨order, ho⟩ := exists_declares hlen
    exact ⟨order, parseOrderArgs_eq_ok.mpr ⟨wellFormed_iff.mpr ⟨hlen, hver, hside⟩, ho⟩,
      (Except.ok.inj hd).symm.trans (hread ho)⟩
  · rintro ⟨order, hparse, rfl⟩
    obtain ⟨hw, hd⟩ := parseOrderArgs_eq_ok.mp hparse
    obtain ⟨hlen, hver, hside⟩ := wellFormed_iff.mp hw
    exact ⟨hlen, hver, hside, congrArg Except.ok (hread hd)⟩

/-- The three readers accept the same byte strings, and read the same terms. -/
theorem readers_agree {args : List Byte} {text : Hex} (htext : hexBytes text = some args)
    (dexScript : Script) :
    (∃ order, parseOrderArgs args = .ok order ∧ decodeDexOrderArgs text = .ok (decodedOf order) ∧
      readOrderTerms { dexScript with args } = .ok (termsOf order)) ∨
    (∃ e, parseOrderArgs args = .error e) ∧ (∃ e, decodeDexOrderArgs text = .error e) ∧
      ∃ e, readOrderTerms { dexScript with args } = .error e := by
  rcases parseOrderArgs_ok_or_error args with ⟨order, hparse⟩ | ⟨e, hparse⟩
  · exact Or.inl ⟨order, hparse, decodeDexOrderArgs_eq_ok.mpr ⟨args, order, htext, hparse, rfl⟩,
      readOrderTerms_eq_ok.mpr ⟨order, hparse, rfl⟩⟩
  · refine Or.inr ⟨⟨e, hparse⟩, ?_, ?_⟩
    · cases hdecode : decodeDexOrderArgs text with
      | error e => exact ⟨e, rfl⟩
      | ok decoded =>
          obtain ⟨bytes, order, hbytes, hok, -⟩ := decodeDexOrderArgs_eq_ok.mp hdecode
          obtain rfl := Option.some_inj.mp (htext.symm.trans hbytes)
          rw [hparse] at hok
          cases hok
    · cases hread : readOrderTerms { dexScript with args } with
      | error e => exact ⟨e, rfl⟩
      | ok terms =>
          obtain ⟨order, hok, -⟩ := readOrderTerms_eq_ok.mp hread
          rw [hparse] at hok
          cases hok

structure DexLockInput where
  side : ℕ
  makerLockHash : Hex
  xudtTypeHash : Hex
  tokenAmount : ℤ
  price : ℤ

def buildDexLock (numLeToBytes : ℤ → ℕ → Except Failure (List Byte)) (dexScript : Script)
    (input : DexLockInput) : Except Failure Script := do
  let makerBytes ← okOr (bytesFrom input.makerLockHash) (.other "invalid maker lock hash")
  let typeBytes ← okOr (bytesFrom input.xudtTypeHash) (.other "invalid token type hash")
  let amountBytes ← numLeToBytes input.tokenAmount 16
  let priceBytes ← numLeToBytes input.price 8
  let args := orderVersion :: BitVec.ofNat 8 input.side ::
    (makerBytes ++ (typeBytes ++ (amountBytes ++ priceBytes)))
  let got := args.length
  throwIf (got ≠ 90) (.other s!"Expected 90-byte order args, got {got}")
  return { dexScript with args }

/-- `ccc.numLeToBytes` pads to the wanted length, and never drops a byte that
the number needs. -/
structure Pads (numLeToBytes : ℤ → ℕ → Except Failure (List Byte)) : Prop where
  fits : ∀ (v : ℕ) n, v < 256 ^ n → numLeToBytes v n = .ok (toLe n v)
  long : ∀ v n bytes, ¬(0 ≤ v ∧ v < 256 ^ n) → numLeToBytes v n = .ok bytes → n < bytes.length

/-- A side and two hashes; amount and price may be anything. -/
structure DexLockInput.Valid (input : DexLockInput) : Prop where
  side : input.side = 0 ∨ input.side = 1
  maker : (hashFrom input.makerLockHash).isSome = true
  token : (hashFrom input.xudtTypeHash).isSome = true

def DexLockInput.Fits (input : DexLockInput) : Prop :=
  (0 ≤ input.tokenAmount ∧ input.tokenAmount < 2 ^ 128) ∧ 0 ≤ input.price ∧ input.price < 2 ^ 64

/-- The input is made of the terms of an order. -/
structure DexLockInput.Describes (input : DexLockInput) (order : OrderArgs) : Prop where
  side : input.side = order.side.toNat
  maker : hashFrom input.makerLockHash = some order.makerLockHash
  token : hashFrom input.xudtTypeHash = some order.xudtTypeHash
  amount : input.tokenAmount = order.tokenAmount.toNat
  price : input.price = order.price.toNat

theorem bytesFrom_of_hashFrom {text : Hex} {hash : Hash} (h : hashFrom text = some hash) :
    bytesFrom text = some hash.toList := by
  obtain ⟨bytes, hbytes, hinto⟩ := Option.bind_eq_some_iff.mp h
  rw [hbytes, tryInto_eq_some.mp hinto]

section
variable {numLeToBytes : ℤ → ℕ → Except Failure (List Byte)} {dexScript : Script}
  {input : DexLockInput} {order : OrderArgs}

theorem exists_describes (hvalid : input.Valid) (hfits : input.Fits) :
    ∃ order, input.Describes order ∧ (order.side = sideBuy ∨ order.side = sideSell) := by
  obtain ⟨maker, hmaker⟩ := Option.isSome_iff_exists.mp hvalid.maker
  obtain ⟨token, htoken⟩ := Option.isSome_iff_exists.mp hvalid.token
  obtain ⟨⟨hamount, hamountLt⟩, hprice, hpriceLt⟩ := hfits
  refine ⟨⟨BitVec.ofNat 8 input.side, maker, token, BitVec.ofNat 128 input.tokenAmount.toNat,
    BitVec.ofNat 64 input.price.toNat⟩, ⟨?_, hmaker, htoken, ?_, ?_⟩, ?_⟩
  · rcases hvalid.side with h | h <;> rw [h] <;> rfl
  · rw [BitVec.toNat_ofNat, Nat.mod_eq_of_lt (by omega)]
    omega
  · rw [BitVec.toNat_ofNat, Nat.mod_eq_of_lt (by omega)]
    omega
  · rcases hvalid.side with h | h <;> rw [h]
    · exact Or.inl rfl
    · exact Or.inr rfl

/-- What fits is written as the contract's tests write it. -/
theorem buildDexLock_eq (hpads : Pads numLeToBytes) (h : input.Describes order) :
    buildDexLock numLeToBytes dexScript input = .ok { dexScript with args := orderArgs order } := by
  have hamount : numLeToBytes input.tokenAmount 16 = .ok (toLe 16 order.tokenAmount.toNat) := by
    rw [h.amount]
    exact hpads.fits _ _ order.tokenAmount.isLt
  have hprice : numLeToBytes input.price 8 = .ok (toLe 8 order.price.toNat) := by
    rw [h.price]
    exact hpads.fits _ _ order.price.isLt
  have hside : BitVec.ofNat 8 input.side = order.side := by
    rw [h.side, BitVec.ofNat_toNat, BitVec.setWidth_eq]
  have hlen : (orderArgs order).length = 90 := by
    simp [orderArgs, order.makerLockHash.length_toList, order.xudtTypeHash.length_toList]
  simp only [buildDexLock, bytesFrom_of_hashFrom h.maker, bytesFrom_of_hashFrom h.token, hamount,
    hprice, hside, bind_eq_ok, okOr_eq_ok, throwIf_eq_ok]
  exact ⟨_, rfl, _, rfl, _, rfl, _, rfl, (), not_not.mpr hlen, rfl⟩

/-- What does not fit makes the args too long. -/
theorem buildDexLock_error (hpads : Pads numLeToBytes) (hvalid : input.Valid)
    (hfits : ¬input.Fits) : ∃ e, buildDexLock numLeToBytes dexScript input = .error e := by
  cases hbuild : buildDexLock numLeToBytes dexScript input with
  | error e => exact ⟨e, rfl⟩
  | ok lock =>
      obtain ⟨maker, hmaker⟩ := Option.isSome_iff_exists.mp hvalid.maker
      obtain ⟨token, htoken⟩ := Option.isSome_iff_exists.mp hvalid.token
      simp only [buildDexLock, bytesFrom_of_hashFrom hmaker, bytesFrom_of_hashFrom htoken,
        bind_eq_ok, okOr_eq_ok, throwIf_eq_ok, Option.some_inj] at hbuild
      obtain ⟨_, rfl, _, rfl, amountBytes, hamount, priceBytes, hprice, -, hlen, -⟩ := hbuild
      rw [not_not] at hlen
      simp only [List.length_cons, List.length_append, maker.length_toList, token.length_toList]
        at hlen
      have hwidth : ∀ v n bytes, numLeToBytes v n = .ok bytes → n ≤ bytes.length ∧
          (¬(0 ≤ v ∧ v < 256 ^ n) → n < bytes.length) := by
        intro v n bytes hbytes
        refine ⟨?_, fun hnot => hpads.long v n bytes hnot hbytes⟩
        by_cases hv : 0 ≤ v ∧ v < 256 ^ n
        · obtain ⟨m, rfl⟩ := Int.eq_ofNat_of_zero_le hv.1
          rw [hpads.fits m n (by exact_mod_cast hv.2)] at hbytes
          rw [← Except.ok.inj hbytes, length_toLe]
        · exact (hpads.long v n bytes hv hbytes).le
      obtain ⟨ha, ha'⟩ := hwidth _ _ _ hamount
      obtain ⟨hp, hp'⟩ := hwidth _ _ _ hprice
      refine (hfits ⟨?_, ?_⟩).elim
      · by_contra hnot
        have := ha' hnot
        omega
      · by_contra hnot
        have := hp' hnot
        omega

end

/-- Accepted args are the ones that their own terms are written as. -/
theorem orderArgs_of_parseOrderArgs {args : List Byte} {order : OrderArgs}
    (h : parseOrderArgs args = .ok order) : orderArgs order = args := by
  obtain ⟨hw, hd⟩ := parseOrderArgs_eq_ok.mp h
  have hlen := hw.length
  obtain ⟨version, side, rest, rfl⟩ : ∃ version side rest, args = version :: side :: rest := by
    match args, hlen with
    | version :: side :: rest, _ => exact ⟨version, side, rest, rfl⟩
  obtain rfl : version = orderVersion := Option.some_inj.mp hw.version
  obtain rfl : side = order.side := Option.some_inj.mp hd.side
  have hamount : toLe 16 order.tokenAmount.toNat = slice (orderVersion :: order.side :: rest) 66 82 := by
    have h := toLe_ofLe (slice (orderVersion :: order.side :: rest) 66 82)
    rwa [length_slice (by omega), hd.amount] at h
  have hprice : toLe 8 order.price.toNat = slice (orderVersion :: order.side :: rest) 82 90 := by
    have h := toLe_ofLe (slice (orderVersion :: order.side :: rest) 82 90)
    rwa [length_slice (by omega), hd.price] at h
  have hrest : rest.length = 88 := by simpa using hlen
  rw [orderArgs, hamount, hprice, ← hd.maker, ← hd.token, slice_append_slice (by decide) (by decide),
    slice_append_slice (by decide) (by decide), slice_append_slice (by decide) (by decide),
    slice_cons, slice_cons, slice_full hrest]

/-- The contract, the backend and the offchain script read every byte string
alike. What the interface writes for values that fit is read back as those
values, so different values have different args; every byte string that is read
is the one written for its own terms; and values that do not fit are not
written. -/
theorem one_order_format {numLeToBytes : ℤ → ℕ → Except Failure (List Byte)}
    (hpads : Pads numLeToBytes) (dexScript : Script) :
    (∀ args text, hexBytes text = some args →
      (∃ order, parseOrderArgs args = .ok order ∧ decodeDexOrderArgs text = .ok (decodedOf order) ∧
        readOrderTerms { dexScript with args } = .ok (termsOf order)) ∨
      (∃ e, parseOrderArgs args = .error e) ∧ (∃ e, decodeDexOrderArgs text = .error e) ∧
        ∃ e, readOrderTerms { dexScript with args } = .error e) ∧
    (∀ input : DexLockInput, input.Valid → input.Fits → ∃ args order,
      buildDexLock numLeToBytes dexScript input = .ok { dexScript with args } ∧
        parseOrderArgs args = .ok order ∧ input.Describes order) ∧
    (∀ a b : DexLockInput, a.Valid → b.Valid → a.Fits → b.Fits →
      buildDexLock numLeToBytes dexScript a = buildDexLock numLeToBytes dexScript b →
      a.side = b.side ∧ hashFrom a.makerLockHash = hashFrom b.makerLockHash ∧
        hashFrom a.xudtTypeHash = hashFrom b.xudtTypeHash ∧ a.tokenAmount = b.tokenAmount ∧
        a.price = b.price) ∧
    (∀ args order, parseOrderArgs args = .ok order → ∀ input : DexLockInput, input.Describes order →
      buildDexLock numLeToBytes dexScript input = .ok { dexScript with args }) ∧
    ∀ input : DexLockInput, input.Valid → ¬input.Fits →
      ∃ e, buildDexLock numLeToBytes dexScript input = .error e := by
  refine ⟨fun args text htext => readers_agree htext dexScript, ?_, ?_, ?_, ?_⟩
  · intro input hvalid hfits
    obtain ⟨order, hdescribes, hside⟩ := exists_describes hvalid hfits
    exact ⟨orderArgs order, order, buildDexLock_eq hpads hdescribes,
      parseOrderArgs_orderArgs hside, hdescribes⟩
  · intro a b ha hb hfa hfb hsame
    obtain ⟨x, hx, hsx⟩ := exists_describes ha hfa
    obtain ⟨y, hy, hsy⟩ := exists_describes hb hfb
    rw [buildDexLock_eq hpads hx, buildDexLock_eq hpads hy] at hsame
    have hargs : orderArgs x = orderArgs y := congrArg Script.args (Except.ok.inj hsame)
    have hread := parseOrderArgs_orderArgs hsx
    rw [hargs, parseOrderArgs_orderArgs hsy] at hread
    obtain rfl := Except.ok.inj hread
    exact ⟨hx.side.trans hy.side.symm, hx.maker.trans hy.maker.symm, hx.token.trans hy.token.symm,
      hx.amount.trans hy.amount.symm, hx.price.trans hy.price.symm⟩
  · intro args order hparse input hdescribes
    rw [buildDexLock_eq hpads hdescribes, orderArgs_of_parseOrderArgs hparse]
  · exact fun input hvalid hfits => buildDexLock_error hpads hvalid hfits

def exampleNumLeToBytes (v : ℤ) (n : ℕ) : Except Failure (List Byte) :=
  if v < 0 then .error (.other "value must be non-negative")
  else .ok (toLe (max n (Nat.digits 256 v.toNat).length) v.toNat)

theorem exampleNumLeToBytes_pads : Pads exampleNumLeToBytes where
  fits := by
    intro v n hv
    have hdigits : (Nat.digits 256 v).length ≤ n := (Nat.digits_length_le_iff (by decide) v).mpr hv
    rw [exampleNumLeToBytes, if_neg (by omega), Int.toNat_natCast, max_eq_left hdigits]
  long := by
    intro v n bytes hnot hbytes
    unfold exampleNumLeToBytes at hbytes
    split_ifs at hbytes with hneg
    obtain ⟨m, rfl⟩ := Int.eq_ofNat_of_zero_le (not_lt.mp hneg)
    have hdigits : n < (Nat.digits 256 m).length := by
      rw [Nat.lt_digits_length_iff (by decide)]
      by_contra hlt
      exact hnot ⟨Int.natCast_nonneg m, by exact_mod_cast not_le.mp hlt⟩
    rw [← Except.ok.inj hbytes, length_toLe, Int.toNat_natCast]
    exact lt_of_lt_of_le hdigits (le_max_right _ _)

/-- The lock of an order, and an amount that is one too large. -/
theorem one_order_format_example :
    (∃ args order, buildDexLock exampleNumLeToBytes ⟨exampleHash 7, .type, []⟩
        ⟨1, hashText (exampleHash 2), hashText (exampleHash 9), 2 ^ 128 - 1, 2 ^ 64 - 1⟩ =
          .ok ⟨exampleHash 7, .type, args⟩ ∧ parseOrderArgs args = .ok order ∧
        order.tokenAmount.toNat = 2 ^ 128 - 1) ∧
    ∃ e, buildDexLock exampleNumLeToBytes ⟨exampleHash 7, .type, []⟩
      ⟨1, hashText (exampleHash 2), hashText (exampleHash 9), 2 ^ 128, 1⟩ = .error e := by
  obtain ⟨-, hbuild, -, -, herror⟩ := one_order_format exampleNumLeToBytes_pads
    ⟨exampleHash 7, .type, []⟩
  have hvalid : ∀ amount price, DexLockInput.Valid
      ⟨1, hashText (exampleHash 2), hashText (exampleHash 9), amount, price⟩ := fun _ _ =>
    ⟨Or.inr rfl, by simp, by simp⟩
  obtain ⟨args, order, hargs, hparse, hdescribes⟩ := hbuild
    ⟨1, hashText (exampleHash 2), hashText (exampleHash 9), 2 ^ 128 - 1, 2 ^ 64 - 1⟩ (hvalid _ _)
    ⟨⟨by decide, by decide⟩, by decide, by decide⟩
  have hamount : (2 ^ 128 - 1 : ℤ) = order.tokenAmount.toNat := hdescribes.amount
  exact ⟨⟨args, order, hargs, hparse, by omega⟩, herror _ (hvalid _ _) fun hfits =>
    absurd hfits.1.2 (by decide)⟩

end CkbDex.OrderFormat
