import Btos.Util.Strings

/-!
# Formatted text

The part of `printf.c` that the information files use: the conversions `%i`, `%x`, `%p` and `%s`,
without a width. `tfp_sprintf` writes the text and a NUL behind it and knows nothing of the size
of the buffer.
-/

namespace Printf

/-- The character of a digit, as `ui2a` computes it for lower case. -/
def digit (dgt : ℕ) : Char :=
  Char.ofNat (dgt + if dgt < 10 then '0'.toNat else 'a'.toNat - 10)

/-- The first loop of `ui2a`: the value of the leading digit's place. The bound on the rounds is
that of a number of 32 bits. -/
def place (num base : ℕ) : ℕ → ℕ → ℕ
  | 0, d => d
  | n + 1, d => if num / d ≥ base then place num base n (d * base % 2 ^ 32) else d

/-- The second loop of `ui2a`: a digit is written if one was before, if it is not zero, or if it
is the last one. -/
def digits (base : ℕ) : ℕ → ℕ → ℕ → Bool → Str
  | 0, _, _, _ => []
  | n + 1, num, d, started =>
      if d = 0 then []
      else if started || 0 < num / d || d / base = 0 then
        digit (num / d) :: digits base n (num % d) (d / base) true
      else digits base n (num % d) (d / base) started

/-- `ui2a`. -/
def ui2a (num : UInt32) (base : ℕ) : Str :=
  digits base 33 num.toNat (place num.toNat base 32 1) false

/-- `i2a`. -/
def i2a (num : Int32) : Str :=
  if num < 0 then '-' :: ui2a (-num).toUInt32 10 else ui2a num.toUInt32 10

/-- What is passed for a conversion. -/
inductive Arg where
  /-- For `%i`. -/
  | int (num : Int32)
  /-- For `%x` and `%p`. -/
  | unsigned (num : UInt32)
  /-- For `%s`. -/
  | str (s : Str)
  deriving Repr

/-- `tfp_format`. -/
def tfpFormat : Str → List Arg → Str
  | '%' :: 'i' :: fmt, .int num :: args => i2a num ++ tfpFormat fmt args
  | '%' :: 'x' :: fmt, .unsigned num :: args => ui2a num 16 ++ tfpFormat fmt args
  | '%' :: 'p' :: fmt, .unsigned num :: args => ui2a num 16 ++ tfpFormat fmt args
  | '%' :: 's' :: fmt, .str s :: args => s ++ tfpFormat fmt args
  | '%' :: '%' :: fmt, args => '%' :: tfpFormat fmt args
  -- A conversion that is not known prints nothing.
  | '%' :: _ :: fmt, args => tfpFormat fmt args
  | ['%'], _ => []
  | c :: fmt, args => c :: tfpFormat fmt args
  | [], _ => []

end Printf
