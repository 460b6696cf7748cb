import LayoutRules.CommandLine.Arguments

/-! The form in which the last line of a failed run shows its fault: the kinds of
the fault from the outermost to the innermost, with texts in quotes. -/
namespace LayoutRules

def Diagnostic.record (kind : Text) (parts : List (Text × Text)) : Text :=
  kind ++ " \x7b ".toList ++ List.intercalate ", ".toList
    (parts.map fun part => part.1 ++ ": ".toList ++ part.2) ++ " \x7d".toList

def Diagnostic.wrap (kind part : Text) : Text := kind ++ "(".toList ++ part ++ ")".toList

open Diagnostic

def Storage.Fault.kind : Storage.Fault → Text
  | notFound => "NotFound".toList
  | notADirectory => "NotADirectory".toList
  | isADirectory => "IsADirectory".toList
  | nameTooLong => "InvalidFilename".toList
  | nulInPath => "InvalidInput".toList
  | notUtf8 => "InvalidData".toList

def Storage.Fault.diagnostic (fault : Storage.Fault) : Text :=
  match fault.code? with
  | some code =>
    record "Os".toList [("code".toList,Numeral.ofNat code),("kind".toList,fault.kind),
      ("message".toList,fault.summary.quoted)]
  | none =>
    record "Error".toList [("kind".toList,fault.kind),("message".toList,fault.summary.quoted)]

def Layout.Fault.diagnostic : Layout.Fault → Text
  | empty => "EmptyToken".toList
  | secondVariant name variant =>
    record "ConflictingVariant".toList [("token".toList,name.quoted),
      ("variant".toList,variant.quoted)]

def Line.Fault.diagnostic : Line.Fault → Text
  | fieldCount count => wrap "FieldCount".toList (Numeral.ofNat count)
  | layout fault => wrap "Token".toList fault.diagnostic

def Table.Fault.diagnostic : Table.Fault → Text
  | unreadable path cause =>
    record "Io".toList [("path".toList,path.quoted),("source".toList,cause.diagnostic)]
  | malformed path number line cause =>
    record "MalformedLine".toList [("path".toList,path.quoted),
      ("line_number".toList,Numeral.ofNat number),("line".toList,line.quoted),
      ("reason".toList,cause.diagnostic)]

def Heading.Fault.diagnostic : Heading.Fault → Text
  | unexpectedVariant layout => wrap "UnexpectedVariant".toList layout.quoted
  | missingVariant layout => wrap "MissingVariant".toList layout.quoted

def Sink.Fault.diagnostic : Sink.Fault → Text
  | full =>
    record "Error".toList [("kind".toList,"WriteZero".toList),
      ("message".toList,Text.quoted full.message)]
  | flushRefused =>
    record "Custom".toList [("kind".toList,"Other".toList),
      ("error".toList,Text.quoted flushRefused.message)]

def Generation.Fault.diagnostic : Generation.Fault → Text
  | table fault => wrap "Table".toList fault.diagnostic
  | rule fault => wrap "Generate".toList fault.diagnostic
  | output fault => wrap "Generate".toList (wrap "Io".toList fault.diagnostic)
  | destination path cause =>
    record "Output".toList [("path".toList,path.quoted),("source".toList,cause.diagnostic)]

def Manifest.Fault.diagnostic : Manifest.Fault → Text
  | unreadable cause => wrap "Io".toList cause.diagnostic
  | notToml => "TomlParse".toList
  | offence _ => "TomlParse".toList
  | fault => wrap "InvalidJob".toList fault.jobMessage.quoted

def Arguments.Refusal.diagnostic : Arguments.Refusal → Text
  | manifest fault => fault.diagnostic
  | refusal => refusal.message.quoted

end LayoutRules
