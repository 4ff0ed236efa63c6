import RepoSurvey.Graph.Dot
import RepoSurvey.Report.Format
import RepoSurvey.Settings.Load

/-!
Handing out a result: to a file or to the screen, and the drawing of the graph to a file of its own.
-/

namespace RepoSurvey

/-- What a run has done so far to the file system and to the screen. -/
structure World where
  files : FileSystem
  printed : String

namespace World

def print (w : World) (text : String) : World := { w with printed := w.printed ++ text }

end World

namespace FileSystem

/-- Writes a text to the file at a path, of which the directory is there. -/
def writeText (fs : FileSystem) (p : Path) (text : String) : Except Failure FileSystem :=
  match fs.outputFlaw? p with
  | some e => .error e
  | none => (fs.write p (Utf8.encode text)).mapError (.outputWrite p.shown)

end FileSystem

namespace World

/-- Writes a text to a file; without a file it is printed. What a failure leaves behind is the world
as it was. -/
def deliver (w : World) (file : Option Path) (text : String) : Except Failure World :=
  match file with
  | none => .ok (w.print text)
  | some p => (w.files.writeText p text).map fun fs => { w with files := fs }

/-- The text of a result, as settings ask for it. It has colours only on the screen. -/
def resultText (s : Settings) (a : Analysis) : String :=
  s.outputFormat.render (s.useColors && s.outputFile.isNone) s.verbose s.quiet a

/-- Hands out a result, as settings ask for it. The world is what is left also when that fails. -/
def handOut (w : World) (s : Settings) (a : Analysis) : World × Except Failure Unit :=
  match w.deliver s.outputFile (resultText s a) with
  | .error e => (w, .error e)
  | .ok w =>
    match s.dotFile with
    | none => (w, .ok ())
    | some p =>
      match w.deliver (some p) a.graph.dot with
      | .error e => (w, .error e)
      | .ok w => (w, .ok ())

end World

end RepoSurvey
