import TierTagger.Connection
import TierTagger.Text.Utf8
import TierTagger.Toml.Shape

/-!
# Configuration

The connection parameters come from a file in TOML, from its table `VCenter`, or are fixed. Either way
server, user and password have to be given. A file is read anew each time it is asked for.

* `Configuration.ofToml`: the parameters that a text states.
* `Configuration.Source.load`: the parameters of a source, if they are complete.
-/

namespace TierTagger

namespace Configuration

/-- What is at the path of a file. -/
inductive File where
  | missing
  | directory
  | content (bytes : Bytes)
  deriving DecidableEq, Repr

/-- Why a file has no text. -/
inductive FileError where
  | notFound
  | isDirectory
  | notText
  deriving DecidableEq, Repr

/-- The wording of an error. -/
def FileError.message : FileError → String
  | notFound => "No such file or directory (os error 2)"
  | isDirectory => "Is a directory (os error 21)"
  | notText => "stream did not contain valid UTF-8"

/-- The text of a file. -/
def File.text : File → Except FileError String
  | missing => .error .notFound
  | directory => .error .isDirectory
  | content bytes =>
    match Utf8.decode? bytes with
    | some s => .ok s
    | none => .error .notText

/-- Why there are no parameters. -/
inductive Error where
  | unreadable (path : String) (reason : FileError)
  | malformed (path : String) (reason : Toml.Error)
  | incomplete (parameter : Connection.Parameter)
  deriving Repr

/-- The wording of an error. -/
def Error.message : Error → String
  | unreadable path reason => "loading " ++ path ++ ": " ++ reason.message
  | malformed path reason => "unmarshalling " ++ path ++ ": " ++ reason.message
  | incomplete p => "required field(s) missing in config, including " ++ p.title

/-- The names of the parameters, in order. -/
def names : List String := ["Server", "User", "Password", "Insecure"]

/-- Sets a parameter. -/
def set (c : Connection) (name : String) (v : Toml.Node) : Except Toml.Error Connection :=
  match name with
  | "Server" => v.text.map fun s => { c with server := s }
  | "User" => v.text.map fun s => { c with user := s }
  | "Password" => v.text.map fun s => { c with password := s }
  | "Insecure" => v.boolean.map fun b => { c with insecure := b }
  | _ => .ok c

/-- The parameters in a value. Those it does not state are empty. -/
def ofNode (v : Toml.Node) : Except Toml.Error Connection :=
  match v.fields? names with
  | none => .error (.unexpected v "struct ConnectionParams")
  | some fs => fs.foldlM (fun c (name, v) => set c name v) default

/-- The parameters that a text states. The whole text has to be well-formed. -/
def ofToml (text : String) : Except Toml.Error Connection :=
  match Toml.parse? text with
  | none => .error .grammar
  | some es =>
    match es.lookup "VCenter" with
    | none => .error (.missing "VCenter")
    | some v => ofNode v

/-- Parameters that are complete. -/
def complete (c : Connection) : Except Error Connection :=
  match c.missing? with
  | some p => .error (.incomplete p)
  | none => .ok c

/-- The parameters in a file. -/
def ofFile (path : String) (file : File) : Except Error Connection :=
  match file.text with
  | .error e => .error (.unreadable path e)
  | .ok text =>
    match ofToml text with
    | .error e => .error (.malformed path e)
    | .ok c => complete c

/-- The path of the file, unless another one is given. -/
def defaultPath : String := "/var/openfaas/secrets/vcconfig"

/-- Where parameters come from. -/
inductive Source where
  | fixed (c : Connection)
  | file (path : String) (file : File)
  deriving Repr

/-- The parameters of a source. -/
def Source.load : Source → Except Error Connection
  | fixed c => complete c
  | file path f => ofFile path f

end Configuration
end TierTagger
