import WorkerPool.Text.Printable

/-!
# Quoted text

A text between double quotes, so that it can be read back: quotes, backslashes and the common
controls have short escapes, every other character that would not be seen is written by its code
point in hexadecimal.
-/

namespace WorkerPool.Text

/-- A code point escape: the hexadecimal digits between braces, without leading zeros. -/
def codeEscape (c : Char) : List Char :=
  '\\' :: 'u' :: '\x7b' :: Nat.toDigits 16 c.toNat ++ ['\x7d']

/-- The written form of one character inside double quotes. A single quote needs no escape. -/
def escapeChar (c : Char) : List Char :=
  if c = '\x00' then ['\\', '0']
  else if c = '\t' then ['\\', 't']
  else if c = '\r' then ['\\', 'r']
  else if c = '\n' then ['\\', 'n']
  else if c = '"' then ['\\', '"']
  else if c = '\\' then ['\\', '\\']
  else if extendsGrapheme c then codeEscape c
  else if isPrintable c then [c]
  else codeEscape c

/-- The text between double quotes, each character in its written form. -/
def quoted (s : String) : String :=
  String.ofList ('"' :: s.toList.flatMap escapeChar ++ ['"'])

/-- A printable character with no escape of its own stands for itself. -/
theorem escapeChar_of_plain {c : Char} (hp : isPrintable c) (hg : extendsGrapheme c = false)
    (hq : c ≠ '"') (hb : c ≠ '\\') : escapeChar c = [c] := by
  have hctl : ∀ d : Char, isPrintable d = false → c ≠ d := by
    rintro d hd rfl
    simp [hp] at hd
  simp [escapeChar, hp, hg, hq, hb, hctl '\x00' (by decide), hctl '\t' (by decide),
    hctl '\r' (by decide), hctl '\n' (by decide)]

end WorkerPool.Text
