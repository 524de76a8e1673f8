import OfficeMachine.Text.GraphemeExtend
import OfficeMachine.Text.Unprintable

namespace OfficeMachine.Text

def hexText (n : Nat) : String := String.ofList (Nat.toDigits 16 n)

def codePointEscape (c : Char) : String := "\\u\x7b" ++ hexText c.toNat ++ "\x7d"

def isHalfwidthSoundMark (c : Char) : Bool := c == '\uff9e' || c == '\uff9f'

def joinsQuote (c : Char) : Bool := isGraphemeExtend c && !isHalfwidthSoundMark c

def isFiller (c : Char) : Bool :=
  c == '\u115f' || c == '\u1160' || c == '\u3164' || c == '\uffa0'

def escaped (c : Char) : String :=
  if c = '\x00' then "\\0"
  else if c = '\t' then "\\t"
  else if c = '\r' then "\\r"
  else if c = '\n' then "\\n"
  else if c = '\x5c' then "\\\\"
  else if c = '\x27' then "\\'"
  else if joinsQuote c || isFiller c || isUnprintable c then codePointEscape c
  else String.singleton c

def quoted (c : Char) : String := "'" ++ escaped c ++ "'"

end OfficeMachine.Text
