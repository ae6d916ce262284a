import HiddenClass.Script.Session

/-!
The program that runs a script file: its answer to the contents of the file and the environment.
-/

namespace HiddenClass.CommandLine

/-- What reading the file gave. -/
inductive Contents where
  | bytes (bytes : ByteArray)
  | unreadable (reason : String)

structure Outcome where
  exit : UInt32 := 0
  stdout : String := ""
  stderr : String := ""
deriving DecidableEq, Repr

/-- An error is written in quoted form. -/
def failure (message : String) : Outcome :=
  { exit := 1, stderr := "Error: " ++ String.ofList (Text.quoted message.toList) ++ "\n" }

/-- A script that stops at a fault has no orderly end. -/
def crash (fault : Fault) : Outcome := { exit := 101, stderr := fault.message ++ "\n" }

def describeCensus (census : Census) : String :=
  s!"structures: {census.liveShapes} live after dropping all objects " ++
    s!"({census.freedShapes} freed)\n"

/-- Runs a script in a new session and counts the shapes that are left without any objects, if asked
to. -/
def runScript (config : Config) (stats : Bool) (source : String) : Outcome :=
  match (Session.run source).run { realm := .ofConfig config } with
  | .ok output session =>
    let stdout := String.join (output.map (· ++ "\n"))
    if stats then
      match (Realm.collect []).run session.realm with
      | .ok census _ => { stdout, stderr := describeCensus census }
      | .error fault _ => { crash fault with stdout }
    else { stdout }
  | .error (.error error) _ => failure error.message
  | .error (.fault fault) _ => crash fault

def run (config : Config) (stats : Bool) (file : String) : Contents → Outcome
  | .unreadable reason => failure s!"{file}: {reason}"
  | .bytes bytes =>
    match String.fromUTF8? bytes with
    | some source => runScript config stats source
    | none => failure s!"{file}: stream did not contain valid UTF-8"

end HiddenClass.CommandLine
