import DiagramDoc.Text.Basic

/-!
# Command lines

The commands and their options. Options may stand anywhere; the word after an option that takes a
value is that value, whatever it looks like.
-/

namespace DiagramDoc.Command

inductive LogLevel where
  | off
  | error
  | warn
  | info
  | debug
  | trace
deriving DecidableEq

namespace LogLevel

def all : List LogLevel := [.off, .error, .warn, .info, .debug, .trace]

def name : LogLevel → Text
  | .off => "off".toList
  | .error => "error".toList
  | .warn => "warn".toList
  | .info => "info".toList
  | .debug => "debug".toList
  | .trace => "trace".toList

def ofWord? (word : Text) : Option LogLevel := all.find? fun l => Text.sameIgnoringCase l.name word

end LogLevel

inductive Action where
  | writeText (marked : Bool)
  | writeTable
  | readText (source : Text)
  | normalize
  | schema
deriving DecidableEq

structure Options where
  action : Action
  data : Option Text := none
  logLevel : Option LogLevel := none
deriving DecidableEq

/-- What the words of a command line say one by one, before they are put together. -/
structure Words where
  plain : List Text := []
  data : Option Text := none
  marker : Bool := false
  logLevel : Option LogLevel := none
deriving DecidableEq

namespace Words

/-- Takes in the words of a command line; an option given twice, without its value or unknown is an
error, and so is a value that is no level. -/
def readOn (w : Words) : List Text → Option Words
  | [] => some w
  | word :: rest =>
    if word = "--data".toList then
      match w.data, rest with
      | none, value :: rest => { w with data := some value }.readOn rest
      | _, _ => none
    else if word = "--marker".toList then
      if w.marker then none else { w with marker := true }.readOn rest
    else if word = "--log-level".toList then
      match w.logLevel, rest with
      | none, value :: rest =>
        match LogLevel.ofWord? value with
        | some level => { w with logLevel := some level }.readOn rest
        | none => none
      | _, _ => none
    else if word.head? = some '-' then none
    else { w with plain := w.plain ++ [word] }.readOn rest

def action? (w : Words) : Option Action :=
  match w.plain with
  | [] => none
  | command :: operands =>
    if command = "text".toList then if operands = [] then some (.writeText w.marker) else none
    else if command = "csv".toList then if operands = [] then some .writeTable else none
    else if command = "import".toList then
      match operands with
      | [source] => some (.readText source)
      | _ => none
    else if command = "normalize".toList then if operands = [] then some .normalize else none
    else if command = "schema".toList then if operands = [] then some .schema else none
    else none

def suits (w : Words) : Action → Bool
  | .writeText _ => true
  | .schema => !w.marker && w.data.isNone
  | _ => !w.marker

end Words

def Options.read? (words : List Text) : Option Options :=
  match ({} : Words).readOn words with
  | none => none
  | some w =>
    match w.action? with
    | none => none
    | some action =>
      if w.suits action then some { action, data := w.data, logLevel := w.logLevel } else none

def usage (program : Text) : Text :=
  let call (t : String) : Text := ' ' :: ' ' :: (program ++ ' ' :: t.toList)
  Text.join ['\n']
    ["Usage:".toList,
     call "text [--data <file>] [--marker]",
     call "csv [--data <file>]",
     call "import <source.mmd> [--data <file>]",
     call "normalize [--data <file>]",
     call "schema",
     [],
     ("Global: --log-level <off|error|warn|info|debug|trace> " ++
       "(overrides RUST_LOG, which defaults to warn).").toList,
     [],
     ("--data defaults to ./mermaid-magic.json; " ++
       "a missing file is created with a starter diagram.").toList,
     "--marker prefixes the exported text with the re-import marker comment.".toList]

end DiagramDoc.Command
