import LayoutRules.Text.Utf8

/-! Text for a terminal, and what of it is kept where there is no terminal. A control
sequence begins with an escape character and is left out whole; so is every other
control character but the tab, the line feed, the form feed and the return. These
four are kept inside a short sequence too, and either end or interrupt it. -/
namespace LayoutRules.Terminal

/-- How much of a control sequence has been seen. A command runs on to a bell. A
control string runs on to a terminator, which counts only behind the lead if the
string is for a device. Both also end where the next sequence begins. A sequence
that was interrupted goes on behind the next control character. -/
inductive Phase where
  | outside
  | interrupted (phase : Phase)
  | escape
  | intermediate
  | parameters
  | device
  | deviceParameters
  | deviceIntermediate
  | controlString
  | command
  deriving DecidableEq, Repr

/-- What spacing does to a short sequence in which it stands. -/
inductive Spacing where
  | ends
  | interrupts
  deriving DecidableEq, Repr

def Spacing.after : Spacing → Phase → Phase
  | ends, _ => .outside
  | interrupts, phase => .interrupted phase

def isSpacing (c : Char) : Bool := c = '\t' || c = '\n' || c = '\x0c' || c = '\r'

def isControl (c : Char) : Bool := (c.toNat < 0x20 || c = '\x7f') && !isSpacing c

def isAscii (c : Char) : Bool := c.toNat < 0x80

/-- Ends a control string: the byte 9C, be it only a part of the character. -/
def isTerminator (c : Char) : Bool := (Utf8.encodeChar c).contains 0x9C

def isBetween (first last : Char) (c : Char) : Bool := first ≤ c && c ≤ last

namespace Phase

def keeps : Phase → Char → Bool
  | outside, c => !isControl c
  | interrupted _, c => !isControl c
  | escape, c => isSpacing c
  | intermediate, c => isSpacing c
  | parameters, c => isSpacing c
  | _, _ => false

/-- The phase after a character. A sequence may be cancelled or begun anew at any
point, and one that was interrupted is forgotten at a character beyond ASCII. -/
def next (spacing : Spacing) (phase : Phase) (c : Char) : Phase :=
  if c = '\x18' || c = '\x1a' then outside
  else if c = '\x1b' then escape
  else match phase with
    | outside => outside
    | interrupted phase =>
      if !isAscii c then outside else if isControl c then phase else interrupted phase
    | escape =>
      if isBetween ' ' '/' c then intermediate
      else if c = '[' then parameters
      else if c = ']' then command
      else if c = 'P' then device
      else if c = 'X' || c = '^' || c = '_' then controlString
      else if isSpacing c then spacing.after escape
      else if isBetween '0' '~' c then outside else escape
    | intermediate =>
      if isSpacing c then spacing.after intermediate
      else if isBetween '0' '~' c then outside else intermediate
    | parameters =>
      if isSpacing c then spacing.after parameters
      else if isBetween '@' '~' c then outside else parameters
    | device =>
      if isBetween ' ' '/' c then deviceIntermediate
      else if isBetween '0' '?' c then deviceParameters
      else if isBetween '@' '~' c then controlString else device
    | deviceParameters =>
      if isBetween ' ' '/' c then deviceIntermediate
      else if isBetween '<' '~' c then controlString else deviceParameters
    | deviceIntermediate => if isBetween '0' '~' c then controlString else deviceIntermediate
    | controlString => if isTerminator c then outside else controlString
    | command => if c = '\x07' then outside else command

end Phase

def plainFrom (spacing : Spacing) : Phase → Text → Text
  | _, [] => []
  | phase, c :: rest =>
    if phase.keeps c then c :: plainFrom spacing (phase.next spacing c) rest
    else plainFrom spacing (phase.next spacing c) rest

def plain (spacing : Spacing) (text : Text) : Text := plainFrom spacing .outside text

/-- Sets a text off by a control sequence in front of it and one after it. -/
def highlighted (text : Text) : Text := "\x1b[1m".toList ++ text ++ "\x1b[0m".toList

end LayoutRules.Terminal
