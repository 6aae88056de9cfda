import CkbDex.Pagination

/-!
# JSON and base64url

The runtime's text for cursors, on the objects that cursors are: `JSON` without
white space, strings with its escapes, integers with all their digits, and
base64url without padding over UTF-8.
-/
namespace CkbDex.CursorText
open Pagination Text

/-- The digits of bytes to the base 64. -/
def sextets : List ℕ → List ℕ
  | [] => []
  | [a] => [a / 4, a % 4 * 16]
  | [a, b] => [a / 4, a % 4 * 16 + b / 16, b % 16 * 4]
  | a :: b :: c :: rest =>
      [a / 4, a % 4 * 16 + b / 16, b % 16 * 4 + c / 64, c % 64] ++ sextets rest

def octets : List ℕ → List ℕ
  | p :: q :: r :: s :: rest => [p * 4 + q / 16, q % 16 * 16 + r / 4, r % 4 * 64 + s] ++ octets rest
  | [p, q, r] => [p * 4 + q / 16, q % 16 * 16 + r / 4]
  | [p, q] => [p * 4 + q / 16]
  | _ => []

def alphabet : List Char :=
  "ABCDEFGHIJKLMNOPQRSTUVWXYZabcdefghijklmnopqrstuvwxyz0123456789-_".toList

def sextetChar (n : ℕ) : Char := alphabet.getD n 'A'

/-- Characters outside the alphabet are passed over. -/
def charSextet (c : Char) : Option ℕ := alphabet.findIdx? (· = c)

theorem charSextet_sextetChar : ∀ n < 64, charSextet (sextetChar n) = some n := by decide

theorem octets_sextets {bytes : List ℕ} (h : ∀ b ∈ bytes, b < 256) : octets (sextets bytes) = bytes := by
  fun_induction sextets bytes with
  | case1 => rfl
  | case2 a =>
    have ha := h a (by simp)
    simp only [octets, List.cons.injEq, and_true]
    omega
  | case3 a b =>
    have ha := h a (by simp)
    have hb := h b (by simp)
    simp only [octets, List.cons.injEq, and_true]
    omega
  | case4 a b c rest ih =>
    have ha := h a (by simp)
    have hb := h b (by simp)
    have hc := h c (by simp)
    simp only [List.cons_append, List.nil_append, octets, List.cons.injEq]
    exact ⟨by omega, by omega, by omega, ih fun x hx => h x (by simp [hx])⟩

theorem sextets_lt {bytes : List ℕ} (h : ∀ b ∈ bytes, b < 256) : ∀ n ∈ sextets bytes, n < 64 := by
  fun_induction sextets bytes with
  | case1 => simp
  | case2 a =>
    have ha := h a (by simp)
    simp only [List.forall_mem_cons, List.not_mem_nil, false_imp_iff, implies_true, and_true]
    omega
  | case3 a b =>
    have ha := h a (by simp)
    have hb := h b (by simp)
    simp only [List.forall_mem_cons, List.not_mem_nil, false_imp_iff, implies_true, and_true]
    omega
  | case4 a b c rest ih =>
    have ha := h a (by simp)
    have hb := h b (by simp)
    have hc := h c (by simp)
    simp only [List.cons_append, List.nil_append, List.forall_mem_cons]
    exact ⟨by omega, by omega, by omega, by omega, ih fun x hx => h x (by simp [hx])⟩

def bytesOf (s : String) : List ℕ := s.toByteArray.data.toList.map UInt8.toNat

/-- Bytes as UTF-8, which a text from `toBase64url` always is. -/
def textOf (bytes : List ℕ) : String :=
  let array : ByteArray := ⟨(bytes.map UInt8.ofNat).toArray⟩
  if h : array.IsValidUTF8 then String.fromUTF8 array h else ""

def toBase64url (s : String) : String := String.ofList ((sextets (bytesOf s)).map sextetChar)

def fromBase64url (s : String) : String := textOf (octets (s.toList.filterMap charSextet))

theorem textOf_bytesOf (s : String) : textOf (bytesOf s) = s := by
  have harray : (⟨((bytesOf s).map UInt8.ofNat).toArray⟩ : ByteArray) = s.toByteArray := by
    rw [bytesOf, List.map_map]
    have hid : UInt8.ofNat ∘ UInt8.toNat = id := funext fun _ => UInt8.ofNat_toNat
    rw [hid, List.map_id, Array.toArray_toList]
  simp only [textOf, harray]
  exact dif_pos s.isValidUTF8

theorem fromBase64url_toBase64url (s : String) : fromBase64url (toBase64url s) = s := by
  have hbytes : ∀ b ∈ bytesOf s, b < 256 := by
    intro b hb
    obtain ⟨byte, -, rfl⟩ := List.mem_map.mp hb
    exact byte.toNat_lt
  have hchars : ((sextets (bytesOf s)).map sextetChar).filterMap charSextet = sextets (bytesOf s) := by
    rw [List.filterMap_map]
    exact (List.filterMap_congr fun n hn => charSextet_sextetChar n (sextets_lt hbytes n hn)).trans
      List.filterMap_some
  rw [fromBase64url, toBase64url, String.toList_ofList, hchars, octets_sextets hbytes, textOf_bytesOf]

/-- What stands for a character in a string. -/
def escape (c : Char) : List Char :=
  if c = '"' then ['\\', '"']
  else if c = '\\' then ['\\', '\\']
  else if c.toNat = 8 then ['\\', 'b']
  else if c.toNat = 9 then ['\\', 't']
  else if c.toNat = 10 then ['\\', 'n']
  else if c.toNat = 12 then ['\\', 'f']
  else if c.toNat = 13 then ['\\', 'r']
  else if c.toNat < 32 then
    ['\\', 'u', '0', '0', (c.toNat / 16).digitChar, (c.toNat % 16).digitChar]
  else [c]

def quote (s : String) : List Char := '"' :: s.toList.flatMap escape ++ ['"']

def unescape (c : Char) : Option Char :=
  if c = '"' ∨ c = '\\' ∨ c = '/' then some c
  else if c = 'b' then some (Char.ofNat 8)
  else if c = 't' then some (Char.ofNat 9)
  else if c = 'n' then some (Char.ofNat 10)
  else if c = 'f' then some (Char.ofNat 12)
  else if c = 'r' then some (Char.ofNat 13)
  else none

/-- One character of a string, or its end. -/
def readCharacter : List Char → Option (Option Char × List Char)
  | [] => none
  | c :: rest =>
      if c = '"' then some (none, rest)
      else if c = '\\' then
        match rest with
        | [] => none
        | e :: rest =>
            if e = 'u' then
              (digitsValue 16 (rest.take 4)).map fun n => (some (Char.ofNat n), rest.drop 4)
            else (unescape e).map fun c => (some c, rest)
      else if c.toNat < 32 then none
      else some (some c, rest)

/-- The rest of a string. -/
def readString : ℕ → List Char → Option (List Char × List Char)
  | 0, _ => none
  | fuel + 1, l =>
      match readCharacter l with
      | some (none, rest) => some ([], rest)
      | some (some c, rest) => (readString fuel rest).map fun read => (c :: read.1, read.2)
      | none => none

theorem ofNat_of_toNat {c : Char} {n : ℕ} (h : c.toNat = n) : Char.ofNat n = c := by
  rw [← h, Char.ofNat_toNat]

theorem digitsValue_control : ∀ n < 32,
    digitsValue 16 ['0', '0', (n / 16).digitChar, (n % 16).digitChar] = some n := by decide

theorem readCharacter_escape (c : Char) (rest : List Char) :
    readCharacter (escape c ++ rest) = some (some c, rest) := by
  have hescaped : ∀ e, e ≠ 'u' → unescape e = some c →
      readCharacter ('\\' :: e :: rest) = some (some c, rest) := by
    intro e hne he
    simp [readCharacter, hne, he]
  unfold escape
  split_ifs with hquote hslash h8 h9 h10 h12 h13 hcontrol
  · exact hescaped '"' (by decide) (by rw [hquote]; rfl)
  · exact hescaped '\\' (by decide) (by rw [hslash]; rfl)
  · exact hescaped 'b' (by decide) (congrArg some (ofNat_of_toNat h8))
  · exact hescaped 't' (by decide) (congrArg some (ofNat_of_toNat h9))
  · exact hescaped 'n' (by decide) (congrArg some (ofNat_of_toNat h10))
  · exact hescaped 'f' (by decide) (congrArg some (ofNat_of_toNat h12))
  · exact hescaped 'r' (by decide) (congrArg some (ofNat_of_toNat h13))
  · have hread := digitsValue_control c.toNat hcontrol
    simp [readCharacter, hread, ofNat_of_toNat rfl]
  · simp [readCharacter, hquote, hslash, hcontrol]

theorem readString_quote {l rest : List Char} {fuel : ℕ} (h : l.length < fuel) :
    readString fuel (l.flatMap escape ++ '"' :: rest) = some (l, rest) := by
  induction l generalizing fuel with
  | nil =>
    obtain ⟨fuel, rfl⟩ := Nat.exists_eq_succ_of_ne_zero (Nat.ne_zero_of_lt h)
    rfl
  | cons c l ih =>
    obtain ⟨fuel, rfl⟩ := Nat.exists_eq_succ_of_ne_zero (Nat.ne_zero_of_lt h)
    rw [List.flatMap_cons, List.append_assoc, readString, readCharacter_escape]
    simp only [ih (Nat.lt_of_succ_lt_succ h), Option.map_some]

/-- A string behind its opening quote. -/
def readText (rest : List Char) : Option (String × List Char) :=
  (readString (rest.length + 1) rest).map fun read => (String.ofList read.1, read.2)

theorem length_le_escaped (l : List Char) : l.length ≤ (l.flatMap escape).length := by
  induction l with
  | nil => exact le_rfl
  | cons c l ih =>
    have hpos : 1 ≤ (escape c).length := by
      unfold escape
      split_ifs <;> simp
    rw [List.flatMap_cons, List.length_append, List.length_cons]
    omega

theorem quote_append (s : String) (rest : List Char) :
    quote s ++ rest = '"' :: (s.toList.flatMap escape ++ '"' :: rest) := by
  simp [quote]

theorem readText_quote (s : String) (rest : List Char) :
    readText (s.toList.flatMap escape ++ '"' :: rest) = some (s, rest) := by
  have hlen : s.toList.length < (s.toList.flatMap escape ++ '"' :: rest).length + 1 := by
    have hle := length_le_escaped s.toList
    rw [List.length_append]
    omega
  rw [readText, readString_quote hlen, Option.map_some, String.ofList_toList]

def writeField : Field → List Char
  | .text s => quote s
  | .integer n => (toString n).toList
  | .other => "null".toList

def readDigits (l : List Char) : Option (ℕ × List Char) :=
  (digitsValue 10 (l.takeWhile Char.isDigit)).map fun n => (n, l.dropWhile Char.isDigit)

def readField : List Char → Option (Field × List Char)
  | [] => none
  | c :: rest =>
      if c = '"' then (readText rest).map fun read => (.text read.1, read.2)
      else if c = '-' then (readDigits rest).map fun read => (.integer (-read.1), read.2)
      else if c.isDigit then (readDigits (c :: rest)).map fun read => (.integer read.1, read.2)
      else if (c :: rest).take 4 = "null".toList then some (.other, rest.drop 3)
      else none

theorem readDigits_toString (n : ℕ) {d : Char} (hd : d.isDigit = false) (rest : List Char) :
    readDigits ((toString n).toList ++ d :: rest) = some (n, d :: rest) := by
  have htake : ((toString n).toList ++ d :: rest).takeWhile Char.isDigit = (toString n).toList := by
    rw [List.takeWhile_append_of_pos isDigit_toList_toString, List.takeWhile_cons_of_neg (by simp [hd]),
      List.append_nil]
  have hdrop : ((toString n).toList ++ d :: rest).dropWhile Char.isDigit = d :: rest := by
    rw [List.dropWhile_append_of_pos isDigit_toList_toString, List.dropWhile_cons_of_neg (by simp [hd])]
  rw [readDigits, htake, hdrop, toList_toString, digitsValue_toDigits, Option.map_some]

theorem readField_writeField (field : Field) {d : Char} (hd : d.isDigit = false) (rest : List Char) :
    readField (writeField field ++ d :: rest) = some (field, d :: rest) := by
  cases field with
  | text s =>
    rw [writeField, quote_append, readField, if_pos rfl, readText_quote, Option.map_some]
  | integer n =>
    cases n with
    | ofNat n =>
      obtain ⟨c, digits, hdigits⟩ : ∃ c digits, (toString n).toList = c :: digits :=
        List.exists_cons_of_ne_nil (by simp)
      have hc : c.isDigit = true := isDigit_toList_toString c (by rw [hdigits]; exact List.mem_cons_self)
      have hread := readDigits_toString n hd rest
      change readField ((toString n).toList ++ d :: rest) = _
      rw [hdigits, List.cons_append] at hread ⊢
      rw [readField, if_neg (ne_of_isDigit hc rfl), if_neg (ne_of_isDigit hc rfl), if_pos hc, hread]
      rfl
    | negSucc n =>
      have hwrite : writeField (.integer (Int.negSucc n)) = '-' :: (toString (n + 1)).toList := by
        change ("-" ++ toString (n + 1)).toList = _
        rw [String.toList_append]
        rfl
      rw [hwrite, List.cons_append, readField, if_neg (by decide), if_pos rfl, readDigits_toString _ hd rest]
      rfl
  | other => rfl

def member (field : String × Field) : List Char := quote field.1 ++ ':' :: writeField field.2

def members : Payload → List Char
  | [] => []
  | [field] => member field
  | field :: rest => member field ++ ',' :: members rest

theorem members_cons (field next : String × Field) (rest : Payload) :
    members (field :: next :: rest) = member field ++ ',' :: members (next :: rest) := rfl

/-- The members of an object up to its end, which ends the text. -/
def readMembers : ℕ → List Char → Option Payload
  | 0, _ => none
  | fuel + 1, l =>
      match l with
      | [] => none
      | c :: l =>
          if c = '"' then do
            let (name, l) ← readText l
            let (field, l) ← readField (l.drop 1)
            if l.take 1 = [','] then (readMembers fuel (l.drop 1)).map fun rest => (name, field) :: rest
            else if l = ['}'] then some [(name, field)]
            else none
          else none

theorem readMembers_members {payload : Payload} (hne : payload ≠ []) {fuel : ℕ} (h : payload.length ≤ fuel) :
    readMembers fuel (members payload ++ ['}']) = some payload := by
  induction payload generalizing fuel with
  | nil => exact absurd rfl hne
  | cons field rest ih =>
    obtain ⟨fuel, rfl⟩ := Nat.exists_eq_succ_of_ne_zero (Nat.ne_zero_of_lt h)
    obtain ⟨name, field⟩ := field
    cases rest with
    | nil =>
      have hfield := readField_writeField field (d := '}') (by decide) []
      rw [members, member, List.append_assoc, quote_append, readMembers, if_pos rfl]
      simp [readText_quote, hfield]
    | cons next rest =>
      have hfield := readField_writeField field (d := ',') (by decide) (members (next :: rest) ++ ['}'])
      have hrest := ih (List.cons_ne_nil _ _) (Nat.le_of_succ_le_succ h)
      rw [members_cons, member, List.append_assoc, List.append_assoc, quote_append, readMembers, if_pos rfl]
      simp [readText_quote, hfield, hrest]

theorem length_le_members (payload : Payload) : payload.length ≤ (members payload).length := by
  induction payload with
  | nil => exact le_rfl
  | cons field rest ih =>
    cases rest with
    | nil => simp [members, member, quote]
    | cons next rest =>
      simp only [members_cons, List.length_append, List.length_cons] at ih ⊢
      omega

def stringify (payload : Payload) : String := String.ofList ('{' :: members payload ++ ['}'])

def parse (s : String) : Option (String → Option Field) :=
  match s.toList with
  | [] => none
  | c :: l =>
      if c = '{' then
        if l = ['}'] then some fun _ => none
        else (readMembers l.length l).map fun fields name => fields.lookup name
      else none

theorem parse_stringify (payload : Payload) :
    parse (stringify payload) = some fun name => payload.lookup name := by
  rw [parse, stringify, String.toList_ofList]
  cases payload with
  | nil => rfl
  | cons field rest =>
    have hopen : ∃ l, members (field :: rest) ++ ['}'] = '"' :: l := by
      cases rest with
      | nil => exact ⟨_, by rw [members, member, List.append_assoc, quote_append]⟩
      | cons next rest =>
          exact ⟨_, by rw [members_cons, member, List.append_assoc, List.append_assoc, quote_append]⟩
    obtain ⟨l, hl⟩ := hopen
    have hclosed : members (field :: rest) ++ ['}'] ≠ ['}'] := by
      rw [hl]
      exact fun h => absurd (List.cons.inj h).1 (by decide)
    have hlen : (field :: rest).length ≤ (members (field :: rest) ++ ['}']).length := by
      rw [List.length_append]
      exact (length_le_members _).trans (Nat.le_add_right _ _)
    simp only [List.cons_append, if_true, if_neg hclosed, readMembers_members (List.cons_ne_nil _ _) hlen,
      Option.map_some]

/-- The runtime with these texts. -/
def runtime : Runtime where
  stringify := stringify
  parse := parse
  toBase64url := toBase64url
  fromBase64url := fromBase64url
  parse_stringify payload _ _ := parse_stringify payload
  fromBase64url_toBase64url := fromBase64url_toBase64url

end CkbDex.CursorText
