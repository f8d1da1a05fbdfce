import HamlTemplate.Listing
import HamlTemplate.Parse.Document

/-!
# Commands

The two commands on a template file. Each is a function of the path and of what the file holds,
and gives what is to be written and the exit code.
-/

namespace HamlTemplate

inductive Command where
  /-- Say whether the file can be parsed. -/
  | check
  /-- List the nodes of the file. -/
  | ast
  deriving DecidableEq, Repr

structure CommandResult where
  exitCode : UInt32 := 0
  output : String := ""
  errors : String := ""
  deriving DecidableEq, Repr

namespace Command

def ofName? : String → Option Command
  | "check" => some check
  | "ast" => some ast
  | _ => none

def fail (message : String) : CommandResult := { exitCode := 1, errors := message ++ "\n" }

/-- What a command writes about a template that can be parsed. -/
def report (command : Command) (path : String) (d : Document) : CommandResult :=
  match command with
  | check => { errors := "OK: " ++ path ++ " (" ++ toString d.lineCount ++ " lines)\n" }
  | ast => { output := String.ofList d.listing }

/-- Runs a command on the bytes of a file, or on a file that does not exist. -/
def run (command : Command) (path : String) (bytes? : Option ByteArray) : CommandResult :=
  match bytes? with
  | none => fail ("Error: file not found: " ++ path)
  | some bytes =>
    match String.fromUTF8? bytes with
    | none => fail ("Error reading " ++ path ++ ": stream did not contain valid UTF-8")
    | some source =>
      match Document.parse .builtins source.toList with
      | .error e => fail (e.report (some path))
      | .ok d => command.report path d

end Command

end HamlTemplate
