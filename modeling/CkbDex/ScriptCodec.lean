import CkbDex.Documents

/-!
# Lock args that embed a script

The older order args of the backend: a serialized lock script, one byte for the
order type, eight bytes for the price. The decoder reads the words at fixed
positions and skips the three words in which a table keeps its offsets.
-/
namespace CkbDex.ScriptCodec
open Bytes Checked CellContext Text Documents

inductive OrderType where
  | ask | bid
  deriving DecidableEq, Repr

structure DexLockArgs where
  ownerLock : ScriptDocument
  orderType : OrderType
  pricePerToken : ℤ
  deriving DecidableEq, Repr

def hashTypeByte : HashType → Byte
  | .data => 0
  | .type => 1
  | .data1 => 2
  | .data2 => 4

def byteHashType (b : Byte) : Option HashType :=
  if b = 0 then some .data
  else if b = 1 then some .type
  else if b = 2 then some .data1
  else if b = 4 then some .data2
  else none

def orderTypeByte : OrderType → Byte
  | .ask => 0
  | .bid => 1

/-- `(hex.length - 2) / 2`, as a number prints. -/
def byteLengthText (hex : Hex) : String :=
  let digits : ℤ := utf16Length hex - 2
  if digits = -1 then "-0.5"
  else if digits % 2 = 0 then toString (digits / 2)
  else s!"{digits / 2}.5"

/-- A buffer write of 32 bits. -/
def writeUInt32LE (n : ℕ) : Except Failure (List Byte) :=
  if n < 2 ^ 32 then return toLe 4 n
  else throw (.other "The value of \"value\" is out of range")

def encodeScript (s : ScriptDocument) : Except Failure (List Byte) := do
  throwIf (utf16Length s.codeHash ≠ 66)
    (.other s!"codeHash must be 32 bytes, got {byteLengthText s.codeHash}")
  let hashType ← okOr (hashTypeFrom s.hashType) (.other s!"unknown hashType \"{s.hashType}\"")
  let args ← toBuffer s.args
  let size ← writeUInt32LE (53 + args.length)
  let codeHash ← toBuffer s.codeHash
  let length ← writeUInt32LE args.length
  return size ++ toLe 4 16 ++ toLe 4 48 ++ toLe 4 49 ++ codeHash ++ [hashTypeByte hashType] ++ length ++
    args

def readUInt32LE (buf : List Byte) (offset : ℕ) : ℕ := ofLe (slice buf offset (offset + 4))

/-- The script at an offset, and where it ends. -/
def decodeScript (buf : List Byte) (offset : ℕ) : Except Failure (ScriptDocument × ℕ) := do
  throwIf (buf.length < offset + 53) (.other s!"script truncated at offset {offset}")
  let full := readUInt32LE buf offset
  throwIf (full < 53 ∨ buf.length < offset + full)
    (.other s!"script full_size {full} overruns the buffer")
  let byte := buf.getD (offset + 48) 0
  let digits := String.ofList (Nat.toDigits 16 byte.toNat)
  let hashType ← okOr (byteHashType byte) (.other s!"unknown hash_type byte 0x{digits}")
  let argsLen := readUInt32LE buf (offset + 49)
  throwIf (53 + argsLen ≠ full)
    (.other s!"script args length {argsLen} disagrees with full_size {full}")
  return ({
    codeHash := toHex (slice buf (offset + 16) (offset + 48))
    hashType := hashTypeText hashType
    args := toHex (slice buf (offset + 53) (offset + full)) }, offset + full)

def encodeDexLockScriptArgs (a : DexLockArgs) : Except Failure Hex := do
  throwIf (a.pricePerToken ≤ 0) (.other "price must be positive")
  throwIf (2 ^ 64 ≤ a.pricePerToken) (.other "price exceeds u64")
  let lock ← encodeScript a.ownerLock
  return toHex (lock ++ [orderTypeByte a.orderType] ++ toLe 8 a.pricePerToken.toNat)

def byteOrderType (b : Byte) : Option OrderType :=
  if b = 0 then some .ask
  else if b = 1 then some .bid
  else none

def decodeDexLockScriptArgs (hex : Hex) : Except Failure DexLockArgs := do
  let buf ← toBuffer hex
  let (ownerLock, stop) ← decodeScript buf 0
  let got := buf.length
  let expected := stop + 9
  throwIf (got ≠ expected)
    (.other s!"dex args are {got} bytes, expected {expected} (script {stop} + type 1 + price 8)")
  let byte := buf.getD stop 0
  let number := byte.toNat
  let orderType ← okOr (byteOrderType byte) (.other s!"unknown order type byte {number}")
  return { ownerLock, orderType, pricePerToken := ofLe (slice buf (stop + 1) (stop + 9)) }

/-- A script as the decoder reads it: any twelve bytes stand where the offsets
belong. -/
def layout (words code : List Byte) (hashType : HashType) (args : List Byte) : List Byte :=
  toLe 4 (53 + args.length) ++ words ++ code ++ [hashTypeByte hashType] ++ toLe 4 args.length ++ args

/-- The three offsets of a script table. -/
def scriptOffsets : List Byte := toLe 4 16 ++ toLe 4 48 ++ toLe 4 49

def scriptOf (code : List Byte) (hashType : HashType) (args : List Byte) : ScriptDocument :=
  { codeHash := toHex code, hashType := hashTypeText hashType, args := toHex args }

theorem byteHashType_hashTypeByte (t : HashType) : byteHashType (hashTypeByte t) = some t := by
  cases t <;> rfl

theorem byteHashType_eq_some {b : Byte} {t : HashType} : byteHashType b = some t ↔ b = hashTypeByte t := by
  constructor
  · intro h
    unfold byteHashType at h
    split_ifs at h with h₀ h₁ h₂ h₄ <;> cases h
    · exact h₀
    · exact h₁
    · exact h₂
    · exact h₄
  · rintro rfl
    exact byteHashType_hashTypeByte t

theorem byteOrderType_eq_some {b : Byte} {t : OrderType} : byteOrderType b = some t ↔
    b = orderTypeByte t := by
  constructor
  · intro h
    unfold byteOrderType at h
    split_ifs at h with h₀ h₁ <;> cases h
    · exact h₀
    · exact h₁
  · rintro rfl
    cases t <;> rfl

theorem slice_at {before part after : List Byte} {n : ℕ} (h : part.length = n) :
    slice (before ++ (part ++ after)) before.length (before.length + n) = part := by
  rw [slice, List.drop_left, Nat.add_sub_cancel_left, ← h, List.take_left]

theorem toLe_of_length {bs : List Byte} {n : ℕ} (h : bs.length = n) : toLe n (ofLe bs) = bs := by
  rw [← h, toLe_ofLe]

theorem slice_byte {bs : List Byte} {i : ℕ} {b : Byte} :
    slice bs i (i + 1) = [b] ↔ i < bs.length ∧ bs.getD i 0 = b := by
  rw [slice, Nat.add_sub_cancel_left, List.getD_eq_getElem?_getD, ← List.head?_drop]
  constructor
  · intro h
    cases hdrop : bs.drop i with
    | nil =>
        rw [hdrop] at h
        cases h
    | cons first rest =>
        rw [hdrop] at h
        cases h
        refine ⟨?_, rfl⟩
        by_contra hge
        rw [List.drop_eq_nil_of_le (not_lt.mp hge)] at hdrop
        cases hdrop
  · rintro ⟨hlt, h⟩
    rw [List.drop_eq_getElem_cons hlt] at h ⊢
    cases h
    rfl

section
variable {buf words code args : List Byte} {hashType : HashType} {offset stop : ℕ} {s : ScriptDocument}

theorem length_layout : (layout words code hashType args).length =
    9 + words.length + code.length + args.length := by
  simp only [layout, List.length_append, length_toLe, List.length_singleton]
  omega

/-- The fields of a script, each at its place. -/
structure Fields (buf : List Byte) (offset : ℕ) (words code : List Byte) (hashType : HashType)
    (args : List Byte) : Prop where
  size : slice buf offset (offset + 4) = toLe 4 (53 + args.length)
  words : slice buf (offset + 4) (offset + 16) = words
  code : slice buf (offset + 16) (offset + 48) = code
  hashType : slice buf (offset + 48) (offset + 49) = [hashTypeByte hashType]
  length : slice buf (offset + 49) (offset + 53) = toLe 4 args.length
  args : slice buf (offset + 53) (offset + 53 + args.length) = args

theorem Fields.slice_eq (h : Fields buf offset words code hashType args) :
    slice buf offset (offset + 53 + args.length) = layout words code hashType args := by
  have hjoin : layout words code hashType args = slice buf offset (offset + 4) ++
      slice buf (offset + 4) (offset + 16) ++ slice buf (offset + 16) (offset + 48) ++
      slice buf (offset + 48) (offset + 49) ++ slice buf (offset + 49) (offset + 53) ++
      slice buf (offset + 53) (offset + 53 + args.length) := by
    rw [h.size, h.words, h.code, h.hashType, h.length, h.args, layout]
  rw [hjoin, slice_append_slice (by omega) (by omega), slice_append_slice (by omega) (by omega),
    slice_append_slice (by omega) (by omega), slice_append_slice (by omega) (by omega),
    slice_append_slice (by omega) (by omega)]

/-- Where a layout stands in a buffer, its fields are read. -/
theorem fields_of_layout {before after : List Byte} (hwords : words.length = 12)
    (hcode : code.length = 32) :
    Fields (before ++ (layout words code hashType args ++ after)) before.length words code hashType
      args := by
  have hread : ∀ (xs part ys : List Byte) (a b : ℕ), layout words code hashType args = xs ++ (part ++ ys) →
      xs.length = a → a + part.length = b →
        slice (before ++ (layout words code hashType args ++ after)) (before.length + a)
          (before.length + b) = part := by
    intro xs part ys a b hlayout ha hb
    have hbuf : before ++ (layout words code hashType args ++ after) =
        (before ++ xs) ++ (part ++ (ys ++ after)) := by
      rw [hlayout]
      simp only [List.append_assoc]
    rw [hbuf, ← hb, ← ha, ← Nat.add_assoc, ← List.length_append]
    exact slice_at rfl
  have hsize := length_toLe 4 (53 + args.length)
  have hlength := length_toLe 4 args.length
  constructor
  · apply hread [] _ _ 0 4
    · simp only [layout, List.append_assoc, List.nil_append]
      rfl
    · rfl
    · rw [hsize]
  · apply hread (toLe 4 (53 + args.length)) _ _ 4 16
    · simp only [layout, List.append_assoc]
      rfl
    · exact hsize
    · rw [hwords]
  · apply hread (toLe 4 (53 + args.length) ++ words) _ _ 16 48
    · simp only [layout, List.append_assoc]
      rfl
    · rw [List.length_append, hsize, hwords]
    · rw [hcode]
  · apply hread (toLe 4 (53 + args.length) ++ words ++ code) _ _ 48 49
    · simp only [layout, List.append_assoc]
      rfl
    · rw [List.length_append, List.length_append, hsize, hwords, hcode]
    · rfl
  · apply hread (toLe 4 (53 + args.length) ++ words ++ code ++ [hashTypeByte hashType]) _ _ 49 53
    · simp only [layout, List.append_assoc]
      rfl
    · simp only [List.length_append, hsize, hwords, hcode, List.length_singleton]
    · rw [hlength]
  · rw [Nat.add_assoc]
    apply hread (toLe 4 (53 + args.length) ++ words ++ code ++ [hashTypeByte hashType] ++
      toLe 4 args.length) _ [] 53 (53 + args.length)
    · simp only [layout, List.append_nil]
    · simp only [List.length_append, hsize, hwords, hcode, hlength, List.length_singleton]
    · rfl

/-- A layout decodes to its script, whatever stands for the offsets. -/
theorem decodeScript_layout {before after : List Byte} (hwords : words.length = 12)
    (hcode : code.length = 32) (hsize : 53 + args.length < 2 ^ 32) :
    decodeScript (before ++ (layout words code hashType args ++ after)) before.length =
      .ok (scriptOf code hashType args, before.length + 53 + args.length) := by
  have hfields : Fields (before ++ (layout words code hashType args ++ after)) before.length words code
      hashType args := fields_of_layout hwords hcode
  have hlen : (before ++ (layout words code hashType args ++ after)).length =
      before.length + (53 + args.length) + after.length := by
    rw [List.length_append, List.length_append, length_layout]
    omega
  have hfull : readUInt32LE (before ++ (layout words code hashType args ++ after)) before.length =
      53 + args.length := by
    rw [readUInt32LE, hfields.size, ofLe_toLe hsize]
  have hargs : readUInt32LE (before ++ (layout words code hashType args ++ after)) (before.length + 49) =
      args.length := by
    rw [readUInt32LE, Nat.add_assoc, hfields.length, ofLe_toLe (by omega)]
  have hbyte := (slice_byte.mp hfields.hashType).2
  simp only [decodeScript, hfull, hargs, hbyte, byteHashType_hashTypeByte]
  rw [(throwIf_eq_ok (u := ())).mpr (by omega), (throwIf_eq_ok (u := ())).mpr (by omega),
    (throwIf_eq_ok (u := ())).mpr (by omega), hfields.code, Nat.add_assoc,
        ← Nat.add_assoc before.length 53, hfields.args]
  rfl

/-- What the decoder accepts is a layout. -/
theorem decodeScript_eq_ok : decodeScript buf offset = .ok (s, stop) ↔
    ∃ before words code hashType args after,
      buf = before ++ (layout words code hashType args ++ after) ∧ before.length = offset ∧
      words.length = 12 ∧ code.length = 32 ∧ 53 + args.length < 2 ^ 32 ∧
      s = scriptOf code hashType args ∧ stop = offset + 53 + args.length := by
  constructor
  · intro h
    simp only [decodeScript, bind_eq_ok, throwIf_eq_ok, okOr_eq_ok] at h
    simp only [exists_const, not_or, not_lt, not_not] at h
    obtain ⟨hlong, ⟨hfull, hfits⟩, hashType, hbyte, hargs, hreturn⟩ := h
    obtain ⟨rfl, rfl⟩ := Prod.mk.inj (Except.ok.inj hreturn)
    have hsizeLen : (slice buf offset (offset + 4)).length = 4 := by
      rw [length_slice (by omega), Nat.add_sub_cancel_left]
    have hargsLen : (slice buf (offset + 49) (offset + 53)).length = 4 := by
      rw [length_slice (by omega)]
      omega
    have hlt : readUInt32LE buf offset < 2 ^ 32 := ofLe_lt_of_length hsizeLen
    have hend : offset + readUInt32LE buf offset = offset + 53 + readUInt32LE buf (offset + 49) := by
      omega
    have hlen : (slice buf (offset + 53) (offset + readUInt32LE buf offset)).length =
        readUInt32LE buf (offset + 49) := by
      rw [length_slice hfits]
      omega
    have hfields : Fields buf offset (slice buf (offset + 4) (offset + 16))
        (slice buf (offset + 16) (offset + 48)) hashType
        (slice buf (offset + 53) (offset + readUInt32LE buf offset)) := by
      constructor
      · rw [hlen, hargs, readUInt32LE, toLe_of_length hsizeLen]
      · rfl
      · rfl
      · exact slice_byte.mpr ⟨by omega, byteHashType_eq_some.mp hbyte⟩
      · rw [hlen, readUInt32LE, toLe_of_length hargsLen]
      · rw [hlen, ← hend]
    refine ⟨buf.take offset, slice buf (offset + 4) (offset + 16), _, hashType, _,
      buf.drop (offset + readUInt32LE buf offset), ?_, ?_, ?_, ?_, ?_, rfl, ?_⟩
    · rw [← hfields.slice_eq, hlen, ← hend, slice, Nat.add_sub_cancel_left, ← List.drop_drop,
        List.take_append_drop, List.take_append_drop]
    · rw [List.length_take]
      omega
    · rw [length_slice (by omega)]
      omega
    · rw [length_slice (by omega)]
      omega
    · rw [hlen, hargs]
      exact hlt
    · rw [hlen, hend]
  · rintro ⟨before, words, code, hashType, args, after, rfl, rfl, hwords, hcode, hsize, rfl, rfl⟩
    exact decodeScript_layout hwords hcode hsize

theorem utf16Length_toHex (bs : List Byte) : utf16Length (toHex bs) = 2 + 2 * bs.length := by
  obtain ⟨digits, htext, hdigits⟩ := isHex_iff.mp (isHex_toHex bs)
  have hascii : ∀ c ∈ (toHex bs).toList, c.toNat < 65536 := by
    intro c hc
    rw [htext] at hc
    rcases List.mem_cons.mp hc with rfl | hc
    · decide
    · rcases List.mem_cons.mp hc with rfl | hc
      · decide
      · obtain ⟨n, hn⟩ := Option.isSome_iff_exists.mp (hdigits c hc)
        unfold hexDigit at hn
        split_ifs at hn <;> omega
  have hones : (toHex bs).toList.map (fun c => if c.toNat < 65536 then 1 else 2) =
      (toHex bs).toList.map fun _ => 1 :=
    List.map_congr_left fun c hc => if_pos (hascii c hc)
  have hlen : (toHex bs).toList.length = 2 + 2 * bs.length := by
    rw [toHex, String.toList_ofList, List.length_cons, List.length_cons, length_flatMap_hexPair]
    omega
  rw [utf16Length, hones, List.map_const', List.sum_replicate_nat, Nat.mul_one, hlen]

theorem toBuffer_toHex (bs : List Byte) : toBuffer (toHex bs) = .ok bs := by
  rw [toBuffer, hexBytes_toHex]
  rfl

theorem writeUInt32LE_eq_ok {n : ℕ} {out : List Byte} :
    writeUInt32LE n = .ok out ↔ n < 2 ^ 32 ∧ out = toLe 4 n := by
  unfold writeUInt32LE
  split_ifs with hlt
  · simp only [pure, Except.pure, Except.ok.injEq, hlt, true_and]
    exact eq_comm
  · simp only [hlt, false_and]

/-- The encoder writes the layout with the offsets of the table. -/
theorem encodeScript_eq_ok {out : List Byte} (hcode : code.length = 32) :
    encodeScript (scriptOf code hashType args) = .ok out ↔
      53 + args.length < 2 ^ 32 ∧ out = layout scriptOffsets code hashType args := by
  have hlen : utf16Length (toHex code) = 66 := by rw [utf16Length_toHex, hcode]
  simp only [encodeScript, scriptOf, hashTypeFrom_hashTypeText, toBuffer_toHex, bind_eq_ok, throwIf_eq_ok,
    okOr_eq_ok, writeUInt32LE_eq_ok, hlen]
  simp only [ne_eq, not_true_eq_false, not_false_eq_true, exists_const, true_and, Option.some_inj,
    exists_eq_left', Except.ok.injEq, pure, Except.pure]
  constructor
  · rintro ⟨size, ⟨hsize, rfl⟩, length, ⟨-, rfl⟩, rfl⟩
    exact ⟨hsize, by simp only [layout, scriptOffsets, List.append_assoc]⟩
  · rintro ⟨hsize, rfl⟩
    exact ⟨_, ⟨hsize, rfl⟩, _, ⟨by omega, rfl⟩, by simp only [layout, scriptOffsets, List.append_assoc]⟩

theorem encodeDexLockScriptArgs_eq_ok {orderType : OrderType} {price : ℤ} {out : Hex}
    (hcode : code.length = 32) :
    encodeDexLockScriptArgs ⟨scriptOf code hashType args, orderType, price⟩ = .ok out ↔
      (0 < price ∧ price < 2 ^ 64 ∧ 53 + args.length < 2 ^ 32) ∧
        out = toHex (layout scriptOffsets code hashType args ++ [orderTypeByte orderType] ++
          toLe 8 price.toNat) := by
  simp only [encodeDexLockScriptArgs, bind_eq_ok, throwIf_eq_ok, encodeScript_eq_ok hcode]
  simp only [exists_const, not_le, pure, Except.pure, Except.ok.injEq]
  constructor
  · rintro ⟨hpos, hlt, lock, ⟨hsize, rfl⟩, rfl⟩
    exact ⟨⟨hpos, hlt, hsize⟩, rfl⟩
  · rintro ⟨⟨hpos, hlt, hsize⟩, rfl⟩
    exact ⟨hpos, hlt, _, ⟨hsize, rfl⟩, rfl⟩

/-- What follows the script in the args. -/
theorem tail_of_layout (hashType : HashType) (args : List Byte) (byte : Byte) {price : List Byte}
    (hwords : words.length = 12)
    (hcode : code.length = 32) (hprice : price.length = 8) :
    (layout words code hashType args ++ [byte] ++ price).length = 53 + args.length + 9 ∧
      (layout words code hashType args ++ [byte] ++ price).getD (53 + args.length) 0 = byte ∧
      slice (layout words code hashType args ++ [byte] ++ price) (53 + args.length + 1)
        (53 + args.length + 9) = price := by
  have hlayout : (layout words code hashType args).length = 53 + args.length := by
    rw [length_layout, hwords, hcode]
  refine ⟨?_, ?_, ?_⟩
  · rw [List.length_append, List.length_append, hlayout, hprice, List.length_singleton]
  · apply (slice_byte.mp _).2
    rw [List.append_assoc, ← hlayout]
    exact slice_at rfl
  · have hjoin : layout words code hashType args ++ [byte] ++ price =
        (layout words code hashType args ++ [byte]) ++ (price ++ []) := by rw [List.append_nil]
    have hstart : 53 + args.length + 1 = (layout words code hashType args ++ [byte]).length := by
      rw [List.length_append, hlayout, List.length_singleton]
    have hend : 53 + args.length + 9 = (layout words code hashType args ++ [byte]).length + 8 := by
      rw [← hstart]
    rw [hjoin, hstart, hend]
    exact slice_at hprice

theorem decodeDexLockScriptArgs_eq_ok {hex : Hex} {x : DexLockArgs} :
    decodeDexLockScriptArgs hex = .ok x ↔ ∃ words code hashType args orderType price,
      hexBytes hex = some (layout words code hashType args ++ [orderTypeByte orderType] ++ price) ∧
      words.length = 12 ∧ code.length = 32 ∧ price.length = 8 ∧ 53 + args.length < 2 ^ 32 ∧
      x = ⟨scriptOf code hashType args, orderType, ofLe price⟩ := by
  simp only [decodeDexLockScriptArgs, toBuffer, bind_eq_ok, okOr_eq_ok, throwIf_eq_ok, Prod.exists,
    decodeScript_eq_ok]
  simp only [exists_const, not_not]
  constructor
  · rintro ⟨buf, hbuf, ownerLock, stop, ⟨before, words, code, hashType, args, after, rfl, hbefore, hwords,
      hcode, hsize, rfl, rfl⟩, hlen, orderType, hbyte, hreturn⟩
    obtain rfl := List.eq_nil_of_length_eq_zero hbefore
    have hafter : after.length = 9 := by
      rw [List.nil_append, List.length_append, length_layout, hwords, hcode] at hlen
      omega
    obtain ⟨byte, price, rfl⟩ := List.exists_cons_of_length_pos (l := after) (by omega)
    have hprice : price.length = 8 := by simpa using hafter
    obtain ⟨-, hget, hslice⟩ := tail_of_layout hashType args byte hwords hcode hprice
    have hjoin : [] ++ (layout words code hashType args ++ byte :: price) =
        layout words code hashType args ++ [byte] ++ price := by simp
    rw [hjoin, Nat.zero_add, hget, byteOrderType_eq_some] at hbyte
    rw [hjoin, Nat.zero_add, hslice] at hreturn
    subst hbyte
    exact ⟨words, code, hashType, args, orderType, price, hjoin ▸ hbuf, hwords, hcode, hprice, hsize,
      (Except.ok.inj hreturn).symm⟩
  · rintro ⟨words, code, hashType, args, orderType, price, hbuf, hwords, hcode, hprice, hsize, rfl⟩
    obtain ⟨hlen, hget, hslice⟩ := tail_of_layout hashType args (orderTypeByte orderType) hwords hcode hprice
    have hjoin : layout words code hashType args ++ [orderTypeByte orderType] ++ price =
        [] ++ (layout words code hashType args ++ ([orderTypeByte orderType] ++ price)) := by simp
    refine ⟨_, hbuf, scriptOf code hashType args, 53 + args.length, ⟨[], words, code, hashType, args, _,
      hjoin, rfl, hwords, hcode, hsize, rfl, by rw [Nat.zero_add]⟩, hlen, orderType, ?_, ?_⟩
    · rw [hget, byteOrderType_eq_some]
    · rw [hslice]
      rfl

/-- The offset words of a script at an offset are those of its table. -/
def HasOffsets (buf : List Byte) (offset : ℕ) : Prop :=
  slice buf (offset + 4) (offset + 16) = scriptOffsets

/-- Some byte of the price is not zero. -/
def NamesPrice (buf : List Byte) : Prop := ∃ b ∈ buf.drop (buf.length - 8), b ≠ 0

/-- Args in lower case that the encoder is meant for. -/
structure Encodable (x : DexLockArgs) : Prop where
  script : ∃ code hashType args, code.length = 32 ∧ x.ownerLock = scriptOf code hashType args
  price_pos : 1 ≤ x.pricePerToken
  price_lt : x.pricePerToken < 2 ^ 64

theorem ofLe_eq_zero {bs : List Byte} : ofLe bs = 0 ↔ ∀ b ∈ bs, b = 0 := by
  induction bs with
  | nil => simp [ofLe]
  | cons b bs ih =>
      have hzero : b.toNat = 0 ↔ b = 0 := by
        rw [← BitVec.toNat_inj]
        rfl
      rw [ofLe, List.forall_mem_cons, ← ih, ← hzero]
      omega

theorem layout_injective {words' : List Byte} {rest rest' : List Byte} (h : words.length = words'.length)
    (hsame : layout words code hashType args ++ rest = layout words' code hashType args ++ rest') :
    words = words' := by
  simp only [layout, List.append_assoc] at hsame
  exact List.append_inj_left (List.append_cancel_left hsame) h

theorem length_scriptOffsets : scriptOffsets.length = 12 := rfl

theorem hasOffsets_layout {before after : List Byte} (hwords : words.length = 12)
    (hcode : code.length = 32) :
    HasOffsets (before ++ (layout words code hashType args ++ after)) before.length ↔
      words = scriptOffsets := by
  rw [HasOffsets, (fields_of_layout hwords hcode).words]

theorem namesPrice_append {front price : List Byte} (hprice : price.length = 8) :
    NamesPrice (front ++ price) ↔ (ofLe price : ℤ) ≠ 0 := by
  have hdrop : (front ++ price).drop ((front ++ price).length - 8) = price := by
    rw [List.length_append, hprice, Nat.add_sub_cancel, List.drop_left]
  rw [NamesPrice, hdrop, ne_eq, Nat.cast_eq_zero, ofLe_eq_zero]
  push Not
  rfl

/-- Decoding inverts encoding for all args whose size fits its word. -/
theorem decode_encode_iff {x : DexLockArgs} (hx : Encodable x) :
    (encodeDexLockScriptArgs x >>= decodeDexLockScriptArgs) = .ok x ↔
      utf16Length x.ownerLock.args ≤ 2 ^ 33 - 106 := by
  obtain ⟨ownerLock, orderType, price⟩ := x
  obtain ⟨⟨code, hashType, args, hcode, rfl⟩, hpos, hlt⟩ := hx
  simp only at hpos hlt
  have hlen : utf16Length (scriptOf code hashType args).args = 2 + 2 * args.length :=
    utf16Length_toHex args
  simp only [bind_eq_ok, encodeDexLockScriptArgs_eq_ok hcode, decodeDexLockScriptArgs_eq_ok, hlen]
  constructor
  · rintro ⟨out, ⟨⟨-, -, hsize⟩, -⟩, -⟩
    omega
  · intro hsize
    have hprice : ofLe (toLe 8 price.toNat) = price.toNat := ofLe_toLe (by omega)
    refine ⟨_, ⟨⟨by omega, hlt, by omega⟩, rfl⟩, scriptOffsets, code, hashType, args, orderType,
      toLe 8 price.toNat, hexBytes_toHex _, length_scriptOffsets, hcode, length_toLe _ _, by omega, ?_⟩
    rw [hprice, Int.toNat_of_nonneg (by omega)]

/-- Accepted args are what the encoder writes when their offsets are those of a
table and the price is not zero. -/
theorem encode_decode_iff {hex : Hex} {x : DexLockArgs} (h : decodeDexLockScriptArgs hex = .ok x) :
    encodeDexLockScriptArgs x = .ok (lower hex) ↔
      ∃ buf, hexBytes hex = some buf ∧ HasOffsets buf 0 ∧ NamesPrice buf := by
  obtain ⟨words, code, hashType, args, orderType, price, hbuf, hwords, hcode, hprice, hsize, rfl⟩ :=
    decodeDexLockScriptArgs_eq_ok.mp h
  have hlt : (ofLe price : ℤ) < 2 ^ 64 := by exact_mod_cast ofLe_lt_of_length hprice
  have hback : toLe 8 (ofLe price : ℤ).toNat = price := by
    rw [Int.toNat_natCast, toLe_of_length hprice]
  have hoffsets : HasOffsets (layout words code hashType args ++ [orderTypeByte orderType] ++ price) 0 ↔
      words = scriptOffsets := by
    rw [List.append_assoc]
    have hfront : HasOffsets ([] ++ (layout words code hashType args ++
        ([orderTypeByte orderType] ++ price))) ([] : List Byte).length ↔ words = scriptOffsets :=
      hasOffsets_layout hwords hcode
    exact hfront
  rw [encodeDexLockScriptArgs_eq_ok hcode, lower_eq_toHex hbuf, hback, hbuf]
  simp only [Option.some_inj, exists_eq_left', hoffsets, namesPrice_append hprice]
  constructor
  · rintro ⟨⟨hpos, -, -⟩, hsame⟩
    have hbytes := toHex_injective hsame
    rw [List.append_assoc, List.append_assoc] at hbytes
    exact ⟨layout_injective (hwords.trans length_scriptOffsets.symm) hbytes, by omega⟩
  · rintro ⟨rfl, hne⟩
    exact ⟨⟨by omega, hlt, hsize⟩, rfl⟩

/-- An accepted script is one that the encoder has written, followed by
anything, when its offsets are those of a table. -/
theorem encodeScript_decodeScript_iff (h : decodeScript buf offset = .ok (s, stop)) :
    (∃ out rest, encodeScript s = .ok out ∧ buf.drop offset = out ++ rest ∧ stop = offset + out.length) ↔
      HasOffsets buf offset := by
  obtain ⟨before, words, code, hashType, args, after, rfl, rfl, hwords, hcode, hsize, rfl, rfl⟩ :=
    decodeScript_eq_ok.mp h
  rw [hasOffsets_layout hwords hcode, List.drop_left]
  simp only [encodeScript_eq_ok hcode]
  constructor
  · rintro ⟨out, rest, ⟨-, rfl⟩, hsame, -⟩
    exact layout_injective (hwords.trans length_scriptOffsets.symm) hsame
  · rintro rfl
    refine ⟨_, after, ⟨hsize, rfl⟩, rfl, ?_⟩
    rw [length_layout, hwords, hcode]
    omega

/-- What the encoder writes decodes at any offset of any buffer. -/
theorem decodeScript_encodeScript {out before after : List Byte} (hcode : code.length = 32)
    (h : encodeScript (scriptOf code hashType args) = .ok out) :
    decodeScript (before ++ (out ++ after)) before.length =
      .ok (scriptOf code hashType args, before.length + out.length) := by
  obtain ⟨hsize, rfl⟩ := (encodeScript_eq_ok hcode).mp h
  rw [decodeScript_layout length_scriptOffsets hcode hsize, length_layout, length_scriptOffsets, hcode]
  congr 2
  omega

/-- Two byte strings that decode to one script differ in their offset words
only. -/
theorem same_script_iff {buf' : List Byte} {offset' stop' : ℕ}
    (h : decodeScript buf offset = .ok (s, stop)) (h' : decodeScript buf' offset' = .ok (s, stop')) :
    slice buf offset stop = slice buf' offset' stop' ↔
      slice buf (offset + 4) (offset + 16) = slice buf' (offset' + 4) (offset' + 16) := by
  obtain ⟨before, words, code, hashType, args, after, rfl, rfl, hwords, hcode, hsize, rfl, rfl⟩ :=
    decodeScript_eq_ok.mp h
  obtain ⟨before', words', code', hashType', args', after', rfl, rfl, hwords', hcode', -, hsame, rfl⟩ :=
    decodeScript_eq_ok.mp h'
  have hfields : Fields (before ++ (layout words code hashType args ++ after)) before.length words code
      hashType args := fields_of_layout hwords hcode
  have hfields' : Fields (before' ++ (layout words' code' hashType' args' ++ after')) before'.length words'
      code' hashType' args' := fields_of_layout hwords' hcode'
  rw [hfields.slice_eq, hfields'.slice_eq, hfields.words, hfields'.words]
  obtain ⟨hcodes, htypes, hargs⟩ : toHex code = toHex code' ∧
      hashTypeText hashType = hashTypeText hashType' ∧ toHex args = toHex args' := by
    simpa only [scriptOf, ScriptDocument.mk.injEq] using hsame
  obtain rfl := toHex_injective hcodes
  obtain rfl := toHex_injective hargs
  have htype := hashTypeFrom_hashTypeText hashType
  rw [htypes, hashTypeFrom_hashTypeText, Option.some_inj] at htype
  subst htype
  constructor
  · intro hlayouts
    apply @layout_injective _ _ _ _ _ [] [] (hwords.trans hwords'.symm)
    rw [hlayouts]
  · rintro rfl
    rfl

end

/-- For which inputs decoding and encoding are inverse to each other: args whose
size fits its word, and byte strings with the offsets of a table and a price. -/
theorem codec_inverse_iff (x y : DexLockArgs) (hex : String) (buf buf' : List Byte)
    (offset stop offset' stop' : ℕ) (s : ScriptDocument) :
    (Encodable x → ((encodeDexLockScriptArgs x >>= decodeDexLockScriptArgs) = .ok x ↔
      utf16Length x.ownerLock.args ≤ 2 ^ 33 - 106)) ∧
    (decodeDexLockScriptArgs hex = .ok y →
      (encodeDexLockScriptArgs y = .ok (lower hex) ↔
        ∃ buf, hexBytes hex = some buf ∧ HasOffsets buf 0 ∧ NamesPrice buf)) ∧
    (∀ code hashType args out before after, code.length = 32 →
      encodeScript (scriptOf code hashType args) = .ok out →
        decodeScript (before ++ (out ++ after)) before.length =
          .ok (scriptOf code hashType args, before.length + out.length)) ∧
    (decodeScript buf offset = .ok (s, stop) →
      ((∃ out rest, encodeScript s = .ok out ∧ buf.drop offset = out ++ rest ∧
        stop = offset + out.length) ↔ HasOffsets buf offset)) ∧
    (decodeScript buf offset = .ok (s, stop) → decodeScript buf' offset' = .ok (s, stop') →
      (slice buf offset stop = slice buf' offset' stop' ↔
        slice buf (offset + 4) (offset + 16) = slice buf' (offset' + 4) (offset' + 16))) := by
  refine ⟨?_, ?_, ?_, ?_, ?_⟩
  · intro hx
    exact decode_encode_iff hx
  · intro h
    exact encode_decode_iff h
  · intro code hashType args out before after hcode h
    exact decodeScript_encodeScript hcode h
  · intro h
    exact encodeScript_decodeScript_iff h
  · intro h h'
    exact same_script_iff h h'

/-- A bid at 1 shannon with the offsets of a table, the same without them, and what
both decode to. -/
def tableBytes : List Byte :=
  layout scriptOffsets (List.replicate 32 0) .type [] ++ [orderTypeByte .bid] ++ toLe 8 1

def laxBytes : List Byte :=
  layout (List.replicate 12 0) (List.replicate 32 0) .type [] ++ [orderTypeByte .bid] ++ toLe 8 1

def laxArgs : DexLockArgs := ⟨scriptOf (List.replicate 32 0) .type [], .bid, 1⟩

theorem laxArgs_encodable : Encodable laxArgs where
  script := ⟨List.replicate 32 0, .type, [], rfl, rfl⟩
  price_pos := le_rfl
  price_lt := by decide

theorem decodeScript_example {words : List Byte} (hwords : words.length = 12) (after : List Byte) :
    decodeScript (layout words (List.replicate 32 0) .type [] ++ after) 0 = .ok (laxArgs.ownerLock, 53) :=
  decodeScript_eq_ok.mpr ⟨[], words, List.replicate 32 0, .type, [], after, rfl, rfl, hwords, rfl,
    by decide, rfl, rfl⟩

/-- The round trip from both ends, and the two byte strings of one script. -/
theorem codec_inverse_iff_example :
    (encodeDexLockScriptArgs laxArgs >>= decodeDexLockScriptArgs) = .ok laxArgs ∧
    encodeDexLockScriptArgs laxArgs = .ok (lower (toHex tableBytes)) ∧
    (∃ out rest, encodeScript laxArgs.ownerLock = .ok out ∧ tableBytes.drop 0 = out ++ rest ∧
      53 = 0 + out.length) ∧
    ¬(∃ out rest, encodeScript laxArgs.ownerLock = .ok out ∧ laxBytes.drop 0 = out ++ rest ∧
      53 = 0 + out.length) ∧
    slice tableBytes 0 53 ≠ slice laxBytes 0 53 := by
  have hdecode : decodeDexLockScriptArgs (toHex tableBytes) = .ok laxArgs :=
    decodeDexLockScriptArgs_eq_ok.mpr
      ⟨_, _, .type, [], .bid, toLe 8 1, hexBytes_toHex _, rfl, rfl, rfl, by decide, rfl⟩
  have htable : decodeScript tableBytes 0 = .ok (laxArgs.ownerLock, 53) := by
    rw [tableBytes, List.append_assoc]
    exact decodeScript_example rfl _
  have hlax : decodeScript laxBytes 0 = .ok (laxArgs.ownerLock, 53) := by
    rw [laxBytes, List.append_assoc]
    exact decodeScript_example rfl _
  have hoffsets : HasOffsets tableBytes 0 := by
    unfold HasOffsets
    decide
  have hnone : ¬HasOffsets laxBytes 0 := by
    unfold HasOffsets
    decide
  have hprice : NamesPrice tableBytes := by
    unfold NamesPrice
    decide
  obtain ⟨hround, himage, -, hscript, hsame⟩ :=
    codec_inverse_iff laxArgs laxArgs (toHex tableBytes) tableBytes
    laxBytes 0 53 0 53 laxArgs.ownerLock
  obtain ⟨-, -, -, hother, -⟩ :=
    codec_inverse_iff laxArgs laxArgs (toHex tableBytes) laxBytes laxBytes 0 53 0 53
    laxArgs.ownerLock
  refine ⟨(hround laxArgs_encodable).mpr ?_, (himage hdecode).mpr ?_, (hscript htable).mpr hoffsets,
    fun h => hnone ((hother hlax).mp h), fun h => ?_⟩
  · decide
  · exact ⟨tableBytes, hexBytes_toHex _, hoffsets, hprice⟩
  · revert h
    rw [hsame htable hlax]
    decide

/-- The decoder accepts bytes that the encoder never writes, and reads the same
value from them as from those that it does write. -/
theorem lax_args_accepted : ∃ hex out, decodeDexLockScriptArgs hex = .ok laxArgs ∧
    encodeDexLockScriptArgs laxArgs = .ok out ∧ decodeDexLockScriptArgs out = .ok laxArgs ∧
      out ≠ lower hex := by
  have hcode : (List.replicate 32 (0 : Byte)).length = 32 := rfl
  refine ⟨toHex laxBytes, toHex tableBytes, ?_, ?_, ?_, ?_⟩
  · exact decodeDexLockScriptArgs_eq_ok.mpr
      ⟨_, _, .type, [], .bid, toLe 8 1, hexBytes_toHex _, rfl, hcode, rfl, by decide, rfl⟩
  · exact (encodeDexLockScriptArgs_eq_ok hcode).mpr ⟨by decide, rfl⟩
  · exact decodeDexLockScriptArgs_eq_ok.mpr
      ⟨_, _, .type, [], .bid, toLe 8 1, hexBytes_toHex _, rfl, hcode, rfl, by decide, rfl⟩
  · rw [lower_toHex]
    intro hsame
    have hbytes := toHex_injective hsame
    revert hbytes
    decide

end CkbDex.ScriptCodec
