/-!
# UTF-8

One pass over the bytes yields a character for every well-formed sequence and `none` for every
longest ill-formed start of one. The lenient reading puts U+FFFD for each `none`; the strict reading
refuses the text.
-/

namespace SessionPool

abbrev Bytes := List UInt8

namespace Utf8

/-- Between two characters, or `owed` bytes are missing, the next of them in `low … high`, and
`code` is the value so far. -/
inductive Pending where
  | clear
  | partway (owed : Nat) (code : Nat) (low high : UInt8)
  deriving DecidableEq

def start (b : UInt8) : List (Option Char) × Pending :=
  let n := b.toNat
  if b < 0x80 then ([some (Char.ofNat n)], .clear)
  else if b < 0xC2 then ([none], .clear)
  else if b < 0xE0 then ([], .partway 1 (n - 0xC0) 0x80 0xBF)
  else if b = 0xE0 then ([], .partway 2 0 0xA0 0xBF)
  else if b = 0xED then ([], .partway 2 0xD 0x80 0x9F)
  else if b < 0xF0 then ([], .partway 2 (n - 0xE0) 0x80 0xBF)
  else if b = 0xF0 then ([], .partway 3 0 0x90 0xBF)
  else if b < 0xF4 then ([], .partway 3 (n - 0xF0) 0x80 0xBF)
  else if b = 0xF4 then ([], .partway 3 4 0x80 0x8F)
  else ([none], .clear)

def step : Pending → UInt8 → List (Option Char) × Pending
  | .clear, b => start b
  | .partway owed code low high, b =>
    if low ≤ b ∧ b ≤ high then
      let code := 64 * code + (b.toNat - 0x80)
      if owed ≤ 1 then ([some (Char.ofNat code)], .clear)
      else ([], .partway (owed - 1) code 0x80 0xBF)
    else
      let (out, next) := start b
      (none :: out, next)

def finish : Pending → List (Option Char)
  | .clear => []
  | .partway .. => [none]

def scanFrom (p : Pending) (acc : List (Option Char)) : Bytes → List (Option Char)
  | [] => acc.reverse ++ finish p
  | b :: bs =>
    let (out, next) := step p b
    scanFrom next (out.reverse ++ acc) bs

def scan (bs : Bytes) : List (Option Char) := scanFrom .clear [] bs

def replacement : Char := '\uFFFD'

def lenient (bs : Bytes) : String :=
  String.ofList ((scan bs).map fun c => c.getD replacement)

def strict? (bs : Bytes) : Option String :=
  String.fromUTF8? ⟨bs.toArray⟩

def encode (s : String) : Bytes := s.toUTF8.data.toList

end Utf8

end SessionPool
