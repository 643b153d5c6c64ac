/-!
# UTF-8

A byte machine with one byte of memory about what may follow:

* `encode cs`     the bytes of a text;
* `decode bs`     one character for every well-formed sequence and `none` for every maximal piece
                  that is the beginning of none (`decode_nil`, `decodeFrom_cons`);
* `decodeLossy`   puts U+FFFD for each fault, `decode?` refuses a text that has one.
-/

namespace Triage.Text.Utf8

def encode (cs : List Char) : List UInt8 := cs.flatMap String.utf8EncodeChar

theorem encode_nil : encode [] = [] := rfl
theorem encode_cons (c : Char) (cs : List Char) :
    encode (c :: cs) = String.utf8EncodeChar c ++ encode cs := rfl
theorem encode_append (a b : List Char) : encode (a ++ b) = encode a ++ encode b := by
  simp [encode, List.flatMap_append]

/-- a sequence that lacks `need` bytes, of which the next lies between `lo` and `hi` -/
structure Pending where
  value : Nat
  need : Nat
  lo : Nat
  hi : Nat

/-- what the first byte of a sequence gives at once, and what it leaves pending -/
def lead (b : Nat) : List (Option Char) × Option Pending :=
  if b < 0x80 then ([some (Char.ofNat b)], none)
  else if b < 0xC2 then ([none], none)
  else if b < 0xE0 then ([], some ⟨b - 0xC0, 1, 0x80, 0xBF⟩)
  else if b < 0xF0 then
    ([], some ⟨b - 0xE0, 2, if b = 0xE0 then 0xA0 else 0x80, if b = 0xED then 0x9F else 0xBF⟩)
  else if b < 0xF5 then
    ([], some ⟨b - 0xF0, 3, if b = 0xF0 then 0x90 else 0x80, if b = 0xF4 then 0x8F else 0xBF⟩)
  else ([none], none)

def step (p : Pending) (b : Nat) : List (Option Char) × Option Pending :=
  if p.lo ≤ b ∧ b ≤ p.hi then
    let value := p.value * 64 + (b - 0x80)
    if p.need = 1 then ([some (Char.ofNat value)], none)
    else ([], some ⟨value, p.need - 1, 0x80, 0xBF⟩)
  else (none :: (lead b).1, (lead b).2)

/-- one byte in a state -/
def feed : Option Pending → Nat → List (Option Char) × Option Pending
  | none, b => lead b
  | some p, b => step p b

def decodeFrom : Option Pending → List UInt8 → List (Option Char)
  | none, [] => []
  | some _, [] => [none]
  | s, b :: bs => (feed s b.toNat).1 ++ decodeFrom (feed s b.toNat).2 bs

theorem decodeFrom_cons (s : Option Pending) (b : UInt8) (bs : List UInt8) :
    decodeFrom s (b :: bs) = (feed s b.toNat).1 ++ decodeFrom (feed s b.toNat).2 bs := by
  cases s <;> rfl

def decode (bs : List UInt8) : List (Option Char) := decodeFrom none bs

theorem decode_nil : decode [] = [] := rfl

def decodeLossy (bs : List UInt8) : List Char := (decode bs).map (·.getD '\uFFFD')

def decode? (bs : List UInt8) : Option (List Char) := (decode bs).mapM id

end Triage.Text.Utf8
