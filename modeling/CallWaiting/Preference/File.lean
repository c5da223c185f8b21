import CallWaiting.Error
import CallWaiting.FileSystem.Basic
import CallWaiting.Preference.Document.Format

/-!
A preference store that is kept in a file. The whole document is written beside the file and
then put in its place, so the file holds either the old document or the new one.
-/

namespace CallWaiting.Preference

structure File where
  path : FileSystem.Path
  document : Document

namespace File

open FileSystem (Path Fault)

def load (fs : FileSystem) (p : Path) : Except Error File :=
  match fs.read p with
  | .ok content =>
    if content.size = 0 then .ok ⟨p, .empty⟩
    else match Document.decode? content with
      | some d => .ok ⟨p, d⟩
      | none => .error .serialization
  | .error .notFound => .ok ⟨p, .empty⟩
  | .error fault => .error (.io fault)

def get? (f : File) (group : String) (k : Key) : Option Int32 :=
  f.document.get? group k

def temporary (p : Path) : Path :=
  p.withExtension "json.tmp".toList

inductive Step where
  | makeParents (parts : List String)
  | write (temporary : Path) (content : ByteArray)
  | replace (temporary target : Path)

def Step.error : Step → Fault → Error
  | .replace _ target, fault =>
    .storage ("failed to replace " ++ target.text ++ ": " ++ fault.text)
  | _, fault => .io fault

def Step.perform (fs : FileSystem) : Step → Except Fault FileSystem
  | .makeParents parts => fs.makeAll parts
  | .write temporary content => fs.write temporary content
  | .replace temporary target => fs.rename temporary target

def steps (p : Path) (d : Document) : List Step :=
  [.makeParents p.parts.dropLast, .write (temporary p) d.encode, .replace (temporary p) p]

def performAll : FileSystem → List Step → FileSystem × Except Error Unit
  | fs, [] => (fs, .ok ())
  | fs, s :: ss =>
    match s.perform fs with
    | .ok fs' => performAll fs' ss
    | .error fault => (fs, .error (s.error fault))

/-- Brings a batch to the file. Only a batch that arrived there is seen by later reads. -/
def put (f : File) (fs : FileSystem) (b : Batch) : FileSystem × File × Except Error Unit :=
  let d := f.document.apply b
  match performAll fs (steps f.path d) with
  | (fs', .ok ()) => (fs', { f with document := d }, .ok ())
  | (fs', .error e) => (fs', f, .error e)

end File

end CallWaiting.Preference
