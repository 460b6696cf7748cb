import LayoutRules.Mapping.Line
import LayoutRules.Rules.Heading
import LayoutRules.Storage.Path

/-! What a run reports beside its results: events in the order in which they
happen, each with a level and a message. -/
namespace LayoutRules

inductive Destination where
  | stdout
  | file (path : Path)
  deriving DecidableEq

namespace Destination

/-- A single dash means standard output. -/
def ofText (text : Text) : Destination := if text = ['-'] then stdout else file text

def toText : Destination → Text
  | stdout => "<stdout>".toList
  | file path => path

end Destination

namespace Log

inductive Level where
  | warn
  | info
  | debug
  | trace
  deriving DecidableEq, Repr

/-- Levels from the most to the least severe. -/
def Level.rank : Level → Nat
  | warn => 1
  | info => 2
  | debug => 3
  | trace => 4

def Level.name : Level → Text
  | warn => "WARN".toList
  | info => "INFO".toList
  | debug => "DEBUG".toList
  | trace => "TRACE".toList

inductive Event where
  | textIgnored (ignored name : Text)
  | mappingRead (path : Path) (line : Nat) (mapping : Mapping)
  | tableRead (path : Path) (count : Nat)
  | tableChecked (path : Path) (count : Nat) (heading : Heading)
  | sectionBegun (heading : Heading) (count : Nat) (withHeading : Bool)
  | ruleReady (heading : Heading) (rule : Text)
  | jobBegun (heading : Heading) (tables : Nat) (destination : Destination)
  | jobFinished (heading : Heading) (count : Nat) (destination : Destination)
  | manifestRead (jobs : Nat)
  deriving DecidableEq

namespace Event

def level : Event → Level
  | textIgnored .. => .warn
  | mappingRead .. => .trace
  | tableRead .. => .debug
  | tableChecked .. => .debug
  | sectionBegun .. => .debug
  | ruleReady .. => .trace
  | jobBegun .. => .debug
  | jobFinished .. => .info
  | manifestRead .. => .debug

def message : Event → Text
  | textIgnored ignored name =>
    "ignoring trailing text '".toList ++ ignored ++ "' in layout token '".toList ++
      name ++ "'".toList
  | mappingRead path line mapping =>
    path ++ ":".toList ++ Numeral.ofNat line ++ ": ".toList ++ mapping.source.toText ++
      " -> ".toList ++ mapping.target.toText
  | tableRead path count =>
    "read ".toList ++ Numeral.ofNat count ++ " mapping(s) from ".toList ++ path
  | tableChecked path count heading =>
    path ++ ": ".toList ++ Numeral.ofNat count ++ " mapping(s) valid for ".toList ++ heading.name
  | sectionBegun heading count withHeading =>
    "generating ".toList ++ heading.name ++ " for ".toList ++ Numeral.ofNat count ++
      " mapping(s), header=".toList ++ (if withHeading then "true".toList else "false".toList)
  | ruleReady heading rule => heading.name ++ ": ".toList ++ rule
  | jobBegun heading tables destination =>
    "running ".toList ++ heading.name ++ " job with ".toList ++ Numeral.ofNat tables ++
      " table(s) into ".toList ++ destination.toText
  | jobFinished heading count destination =>
    heading.name ++ ": wrote ".toList ++ Numeral.ofNat count ++ " mapping(s) to ".toList ++
      destination.toText
  | manifestRead jobs => "loaded ".toList ++ Numeral.ofNat jobs ++ " job(s) from manifest".toList

def line (event : Event) : Text := event.level.name ++ ' ' :: event.message

end Event

def upTo (level : Level) (events : List Event) : List Event :=
  events.filter fun event => event.level.rank ≤ level.rank

end Log
end LayoutRules
