import Triage.History.Form
import Triage.Text.Blank

/-!
# Encoded texts read back

* `Utf8.decode_encode`     every text survives UTF-8 (`decodeFrom_encodeChar`: one character, by the
                           number of its bytes);
* `Form.bytes_encode`      the bytes of a form-encoded text are those of its UTF-8 form;
* `Form.decode_encode`     every text survives form encoding;
* `Form.isSafe`            what a form-encoded text is made of: neither separators nor blanks
                           (`isSafe_of_mem_encode`).
-/

namespace Triage.Text.Utf8

/-! ## UTF-8 -/

theorem toNat_cases (c : Char) : c.toNat < 0xD800 ∨ 0xDFFF < c.toNat ∧ c.toNat < 0x110000 := by
  have h := c.valid
  simp only [UInt32.isValidChar, Nat.isValidChar] at h
  exact h

theorem toNat_byte {n : Nat} (h : n < 256) : (UInt8.ofNat n).toNat = n := by
  simp [Nat.mod_eq_of_lt h]

theorem decodeFrom_byte (s : Option Pending) {n : Nat} (h : n < 256) (bs : List UInt8) :
    decodeFrom s (UInt8.ofNat n :: bs) = (feed s n).1 ++ decodeFrom (feed s n).2 bs := by
  rw [decodeFrom_cons, toNat_byte h]

/-- the last byte of a sequence -/
theorem feed_last {p : Pending} (hn : p.need = 1) {b : Nat} (hlo : p.lo ≤ b) (hhi : b ≤ p.hi) :
    feed (some p) b = ([some (Char.ofNat (p.value * 64 + (b - 0x80)))], none) := by
  rw [feed, step, if_pos ⟨hlo, hhi⟩]
  simp only [hn, if_true]

/-- a byte in the middle of a sequence -/
theorem feed_more {p : Pending} {k : Nat} (hn : p.need = k + 2) {b : Nat} (hlo : p.lo ≤ b)
    (hhi : b ≤ p.hi) :
    feed (some p) b = ([], some ⟨p.value * 64 + (b - 0x80), k + 1, 0x80, 0xBF⟩) := by
  rw [feed, step, if_pos ⟨hlo, hhi⟩]
  have h1 : p.need ≠ 1 := by omega
  have h2 : p.need - 1 = k + 1 := by omega
  simp only [h1, if_false, h2]

theorem lead_two {b : Nat} (h1 : 0xC2 ≤ b) (h2 : b < 0xE0) :
    feed none b = ([], some ⟨b - 0xC0, 1, 0x80, 0xBF⟩) := by
  rw [feed, lead, if_neg (by omega), if_neg (by omega), if_pos h2]

theorem lead_three {b : Nat} (h1 : 0xE0 ≤ b) (h2 : b < 0xF0) :
    feed none b = ([], some ⟨b - 0xE0, 2, if b = 0xE0 then 0xA0 else 0x80,
      if b = 0xED then 0x9F else 0xBF⟩) := by
  rw [feed, lead, if_neg (by omega), if_neg (by omega), if_neg (by omega), if_pos h2]

theorem lead_four {b : Nat} (h1 : 0xF0 ≤ b) (h2 : b < 0xF5) :
    feed none b = ([], some ⟨b - 0xF0, 3, if b = 0xF0 then 0x90 else 0x80,
      if b = 0xF4 then 0x8F else 0xBF⟩) := by
  rw [feed, lead, if_neg (by omega), if_neg (by omega), if_neg (by omega), if_neg (by omega),
    if_pos h2]

/-! ## one sequence, and then what follows it -/

variable {v : Nat} (bs : List UInt8)

theorem decodeFrom_one (h : v ≤ 0x7f) :
    decodeFrom none (UInt8.ofNat v :: bs) = some (Char.ofNat v) :: decodeFrom none bs := by
  rw [decodeFrom_byte _ (by omega), feed, lead, if_pos (by omega)]
  rfl

theorem decodeFrom_two (h1 : 0x7f < v) (h2 : v ≤ 0x7ff) :
    decodeFrom none (UInt8.ofNat (v / 64 % 0x20 + 0xc0) :: UInt8.ofNat (v % 0x40 + 0x80) :: bs) =
      some (Char.ofNat v) :: decodeFrom none bs := by
  rw [decodeFrom_byte _ (by omega), lead_two (by omega) (by omega), List.nil_append,
    decodeFrom_byte _ (by omega), feed_last rfl (by dsimp only; omega) (by dsimp only; omega)]
  have e : (v / 64 % 0x20 + 0xc0 - 0xC0) * 64 + (v % 0x40 + 0x80 - 0x80) = v := by omega
  dsimp only
  rw [e]
  rfl

theorem decodeFrom_three (h1 : 0x7ff < v) (h2 : v ≤ 0xffff) (hv : v < 0xd800 ∨ 0xdfff < v) :
    decodeFrom none (UInt8.ofNat (v / 4096 % 0x10 + 0xe0) ::
      UInt8.ofNat (v / 64 % 0x40 + 0x80) :: UInt8.ofNat (v % 0x40 + 0x80) :: bs) =
      some (Char.ofNat v) :: decodeFrom none bs := by
  rw [decodeFrom_byte _ (by omega), lead_three (by omega) (by omega), List.nil_append,
    decodeFrom_byte _ (by omega),
    feed_more (k := 0) rfl (by dsimp only; split <;> omega) (by dsimp only; split <;> omega),
    List.nil_append, decodeFrom_byte _ (by omega),
    feed_last rfl (by dsimp only; omega) (by dsimp only; omega)]
  have e : ((v / 4096 % 0x10 + 0xe0 - 0xE0) * 64 + (v / 64 % 0x40 + 0x80 - 0x80)) * 64 +
      (v % 0x40 + 0x80 - 0x80) = v := by omega
  dsimp only
  rw [e]
  rfl

theorem decodeFrom_four (h1 : 0xffff < v) (h2 : v < 0x110000) :
    decodeFrom none (UInt8.ofNat (v / 262144 % 0x08 + 0xf0) ::
      UInt8.ofNat (v / 4096 % 0x40 + 0x80) :: UInt8.ofNat (v / 64 % 0x40 + 0x80) ::
      UInt8.ofNat (v % 0x40 + 0x80) :: bs) = some (Char.ofNat v) :: decodeFrom none bs := by
  rw [decodeFrom_byte _ (by omega), lead_four (by omega) (by omega), List.nil_append,
    decodeFrom_byte _ (by omega),
    feed_more (k := 1) rfl (by dsimp only; split <;> omega) (by dsimp only; split <;> omega),
    List.nil_append, decodeFrom_byte _ (by omega),
    feed_more (k := 0) rfl (by dsimp only; omega) (by dsimp only; omega),
    List.nil_append, decodeFrom_byte _ (by omega),
    feed_last rfl (by dsimp only; omega) (by dsimp only; omega)]
  have e : (((v / 262144 % 0x08 + 0xf0 - 0xF0) * 64 + (v / 4096 % 0x40 + 0x80 - 0x80)) * 64 +
      (v / 64 % 0x40 + 0x80 - 0x80)) * 64 + (v % 0x40 + 0x80 - 0x80) = v := by omega
  dsimp only
  rw [e]
  rfl

theorem utf8EncodeChar_eq (c : Char) :
    String.utf8EncodeChar c =
      if c.toNat ≤ 0x7f then [UInt8.ofNat c.toNat]
      else if c.toNat ≤ 0x7ff then
        [UInt8.ofNat (c.toNat / 64 % 0x20 + 0xc0), UInt8.ofNat (c.toNat % 0x40 + 0x80)]
      else if c.toNat ≤ 0xffff then
        [UInt8.ofNat (c.toNat / 4096 % 0x10 + 0xe0), UInt8.ofNat (c.toNat / 64 % 0x40 + 0x80),
          UInt8.ofNat (c.toNat % 0x40 + 0x80)]
      else
        [UInt8.ofNat (c.toNat / 262144 % 0x08 + 0xf0), UInt8.ofNat (c.toNat / 4096 % 0x40 + 0x80),
          UInt8.ofNat (c.toNat / 64 % 0x40 + 0x80), UInt8.ofNat (c.toNat % 0x40 + 0x80)] := rfl

theorem decodeFrom_encodeChar (c : Char) :
    decodeFrom none (String.utf8EncodeChar c ++ bs) = some c :: decodeFrom none bs := by
  have hv := toNat_cases c
  have hc : Char.ofNat c.toNat = c := Char.ofNat_toNat c
  rw [utf8EncodeChar_eq]
  generalize c.toNat = v at hv hc
  rw [← hc]
  by_cases h1 : v ≤ 0x7f
  · rw [if_pos h1]
    exact decodeFrom_one bs h1
  by_cases h2 : v ≤ 0x7ff
  · rw [if_neg h1, if_pos h2]
    exact decodeFrom_two bs (by omega) h2
  by_cases h3 : v ≤ 0xffff
  · rw [if_neg h1, if_neg h2, if_pos h3]
    exact decodeFrom_three bs (by omega) h3 (by omega)
  · rw [if_neg h1, if_neg h2, if_neg h3]
    exact decodeFrom_four bs (by omega) (by omega)

theorem decode_encode (cs : List Char) : decode (encode cs) = cs.map some := by
  induction cs with
  | nil => rfl
  | cons c cs ih =>
    rw [encode_cons, decode, decodeFrom_encodeChar]
    exact congrArg (some c :: ·) ih

theorem decodeLossy_encode (cs : List Char) : decodeLossy (encode cs) = cs := by
  rw [decodeLossy, decode_encode, List.map_map]
  exact List.map_id' cs

end Triage.Text.Utf8

namespace Triage.Form

open Text

/-! ## form encoding -/

/-- neither a separator of a query string, nor a leading mark of one, nor blank -/
def isSafe (c : Char) : Bool := c != '&' && c != '=' && c != '#' && c != '?' && !isBlank c

theorem isSafe_of_mem_encodeByte {b : UInt8} {c : Char} (h : c ∈ encodeByte b) :
    isSafe c = true := by
  have hall : ∀ n < 256, (encodeByte (UInt8.ofNat n)).all isSafe = true := by
    decide +kernel
  have hb := hall b.toNat b.toNat_lt
  rw [UInt8.ofNat_toNat] at hb
  exact List.all_eq_true.1 hb c h

theorem isSafe_of_mem_encode {cs : List Char} {c : Char} (h : c ∈ encode cs) : isSafe c = true := by
  obtain ⟨b, -, hb⟩ := List.mem_flatMap.1 h
  exact isSafe_of_mem_encodeByte hb

theorem bytes_cons_of_ne {c : Char} (h1 : c ≠ '%') (h2 : c ≠ '+') (rest : List Char) :
    bytes (c :: rest) = String.utf8EncodeChar c ++ bytes rest := by
  rw [bytes]
  · exact fun _ _ _ h _ => h1 h
  · exact h2

theorem bytes_escape (hi lo : Nat) (h1 : hi < 16) (h2 : lo < 16) (rest : List Char) :
    bytes ('%' :: upperHex hi :: upperHex lo :: rest) =
      UInt8.ofNat (hi * 16 + lo) :: bytes rest := by
  rw [bytes, hexValue?_upperHex hi h1, hexValue?_upperHex lo h2]

/-- a plain byte is an ASCII character other than the two marks -/
theorem plain_byte {n : Nat} (h : isPlain n = true) :
    n < 128 ∧ Char.ofNat n ≠ '%' ∧ Char.ofNat n ≠ '+' := by
  have hlt : n < 128 := by
    simp [isPlain] at h
    omega
  refine ⟨hlt, ?_⟩
  have hall : ∀ n < 128, isPlain n = true → Char.ofNat n ≠ '%' ∧ Char.ofNat n ≠ '+' := by decide
  exact hall n hlt h

theorem utf8EncodeChar_ofNat :
    ∀ n < 128, String.utf8EncodeChar (Char.ofNat n) = [UInt8.ofNat n] := by
  decide

theorem bytes_encodeByte (b : UInt8) (rest : List Char) :
    bytes (encodeByte b ++ rest) = b :: bytes rest := by
  have hb := b.toNat_lt
  unfold encodeByte
  dsimp only
  by_cases hp : isPlain b.toNat = true
  · obtain ⟨hlt, h1, h2⟩ := plain_byte hp
    rw [if_pos hp, List.cons_append, bytes_cons_of_ne h1 h2, utf8EncodeChar_ofNat _ hlt,
      UInt8.ofNat_toNat]
    rfl
  · rw [if_neg hp]
    by_cases hs : b.toNat = 32
    · rw [if_pos hs]
      have e : b = 32 := by
        rw [← UInt8.ofNat_toNat (x := b), hs]
        rfl
      rw [e]
      rfl
    · rw [if_neg hs]
      have e : b.toNat / 16 * 16 + b.toNat % 16 = b.toNat := by omega
      show bytes ('%' :: upperHex (b.toNat / 16) :: upperHex (b.toNat % 16) :: rest) = _
      rw [bytes_escape _ _ (by omega) (by omega), e, UInt8.ofNat_toNat]

theorem bytes_encode (cs : List Char) : bytes (encode cs) = Utf8.encode cs := by
  rw [encode]
  generalize Utf8.encode cs = bs
  induction bs with
  | nil => rfl
  | cons b bs ih => rw [List.flatMap_cons, bytes_encodeByte, ih]

theorem decode_encode (cs : List Char) : decode (encode cs) = cs := by
  rw [decode, bytes_encode, Utf8.decodeLossy_encode]

end Triage.Form
