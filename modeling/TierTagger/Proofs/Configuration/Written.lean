import TierTagger.Configuration
import TierTagger.Proofs.Text.Utf8
import TierTagger.Proofs.Toml.Document
import TierTagger.Proofs.Toml.Tables

/-!
# Parameters in a file

A file that holds parameters is as good as the parameters themselves.

* `Holds`: a text has the parameters in its table `VCenter`, among whatever else is well-formed.
* `load_written`: they come out of the file as if they had been given at once.
-/

namespace TierTagger.Configuration

open Toml hiding Error
open Toml.Entries

variable {p c : Connection} {fs : Entries} {text : String}

/-! ## Parameters in a table -/

/-- The parameters as entries of a table. -/
def stated (p : Connection) : Entries :=
  [("Server", .scalar (.text p.server)), ("User", .scalar (.text p.user)), ("Password", .scalar (.text p.password)),
    ("Insecure", .scalar (.boolean p.insecure))]

/-- The entries of a table state the parameters: each has its own value and stands there once, and one that does
not stand there has its default. -/
structure States (fs : Entries) (p : Connection) : Prop where
  right : ∀ f ∈ fs, f ∈ stated p
  once : (keys fs).Nodup
  omitted : ∀ f ∈ stated p, f.1 ∉ keys fs → f ∈ stated default

/-- A text holds the parameters: there is a table `VCenter` with a header and below it, in any order and among
others, the assignments that state them. Without them the text is that of a document, and nothing in the table
has their names. -/
inductive Holds (text : String) (p : Connection) : Prop
  | of {before rest : List Line} {es inner : Entries}
    (document : IsDocument text (before ++ .header .table [] "VCenter" :: rest))
    (states : States (given names (sections rest).1) p)
    (sound : ofDocument (sections before).1 ((sections before).2 ++
      ⟨.table, [], "VCenter", others names (sections rest).1⟩ :: (sections rest).2) = some es)
    (table : es.lookup "VCenter" = some (.table .header inner)) (free : Free names inner)

/-- Two sets of parameters agree in one. -/
def Agree (c p : Connection) (name : String) : Prop := (stated c).lookup name = (stated p).lookup name

theorem eq_of_agree (all : ∀ f ∈ stated p, Agree c p f.1) : c = p := by
  obtain ⟨server, user, password, insecure⟩ := c
  obtain ⟨server', user', password', insecure'⟩ := p
  simpa [stated, Agree, List.lookup_cons] using all

/-- Setting a parameter to its value in `p` makes both agree in it, and they still do where they did. -/
theorem set_stated {name : String} {v : Node} (own : (name, v) ∈ stated p) (c : Connection) :
    ∃ c', set c name v = .ok c' ∧ Agree c' p name ∧ ∀ other, Agree c p other → Agree c' p other := by
  simp only [stated, List.mem_cons, Prod.mk.injEq, List.not_mem_nil, or_false] at own
  rcases own with ⟨rfl, rfl⟩ | ⟨rfl, rfl⟩ | ⟨rfl, rfl⟩ | ⟨rfl, rfl⟩
  all_goals
    refine ⟨_, rfl, rfl, fun other agree => ?_⟩
    grind [Agree, stated]

theorem foldlM_set (right : ∀ f ∈ fs, f ∈ stated p) (c : Connection) :
    ∃ c', fs.foldlM (fun c (name, v) => set c name v) c = .ok c' ∧ (∀ name ∈ keys fs, Agree c' p name) ∧
      ∀ name, Agree c p name → Agree c' p name := by
  induction fs generalizing c with
  | nil => exact ⟨c, rfl, nofun, fun _ agree => agree⟩
  | cons f fs ih =>
    obtain ⟨own, others⟩ := List.forall_mem_cons.mp right
    obtain ⟨c₁, at_c₁, here, kept⟩ := set_stated own c
    obtain ⟨c₂, at_c₂, all, kept'⟩ := ih others c₁
    refine ⟨c₂, ?_, List.forall_mem_cons.mpr ⟨kept' _ here, all⟩, fun name agree => kept' _ (kept _ agree)⟩
    rw [List.foldlM_cons]
    show (set c f.1 f.2).bind _ = _
    rw [at_c₁]
    exact at_c₂

theorem lookup_stated {f : String × Node} (mem : f ∈ stated p) : (stated p).lookup f.1 = some f.2 := by
  simp only [stated, List.mem_cons, List.not_mem_nil, or_false] at mem
  rcases mem with rfl | rfl | rfl | rfl <;> rfl

/-- The parameters of a table are those that its entries state, whatever else is in it. -/
theorem ofNode_states {inner inner' : Entries} {origin : Origin} (states : States fs p)
    (joins : Joins names fs inner inner') : ofNode (.table origin inner') = .ok p := by
  obtain ⟨c, at_c, set_all, kept⟩ := foldlM_set states.right default
  have same : c = p := eq_of_agree fun f mem => by
    by_cases written : f.1 ∈ keys fs
    · exact set_all _ written
    · exact kept _ ((lookup_stated (states.omitted f mem written)).trans (lookup_stated mem).symm)
  have fields : (Node.table origin inner').fields? names = some fs := congrArg some joins.named
  rw [ofNode, fields, ← same]
  exact at_c

/-! ## Parameters in a text -/

theorem Holds.ofToml (holds : Holds text p) : ofToml text = .ok p := by
  obtain ⟨document, states, sound, table, free⟩ := holds
  obtain ⟨es, inner, accepted, at_table, joins⟩ := ofDocument_joins states.once sound table free
  have parsed := document.parse
  rw [sections_append] at parsed
  simp only [Configuration.ofToml, parsed, accepted, at_table]
  exact ofNode_states states joins

/-- Parameters that a file holds are as good as given at once: complete ones come out as they are, and otherwise
the first that is empty is said to be missing. -/
theorem load_written (path : String) (holds : Holds text p) :
    let loaded := (Source.file path (.content (Utf8.encode text))).load
    loaded = (Source.fixed p).load ∧
      (p.server ≠ "" → p.user ≠ "" → p.password ≠ "" → loaded = .ok p) ∧
      (p.server = "" → loaded = .error (.incomplete .server)) ∧
      (p.server ≠ "" → p.user = "" → loaded = .error (.incomplete .user)) ∧
      (p.server ≠ "" → p.user ≠ "" → p.password = "" → loaded = .error (.incomplete .password)) := by
  intro loaded
  have same : loaded = complete p := by
    show ofFile path (.content (Utf8.encode text)) = _
    have read : File.text (.content (Utf8.encode text)) = .ok text := by
      rw [File.text, Utf8.decode?_encode]
    simp only [ofFile, read, holds.ofToml]
  rw [same]
  refine ⟨rfl, fun server user password => ?_, fun server => ?_, fun server user => ?_,
    fun server user password => ?_⟩
  · rw [complete, Connection.missing?, if_neg server, if_neg user, if_neg password]
  · rw [complete, Connection.missing?, if_pos server]
  · rw [complete, Connection.missing?, if_neg server, if_pos user]
  · rw [complete, Connection.missing?, if_neg server, if_neg user, if_pos password]

/-! ## A file -/

/-- A basic string is a value. -/
theorem isValue_text {s t : List Char} (text : IsBasicText s t) :
    IsValue deepest ('"' :: (s ++ ['"'])) (.scalar (.text (.ofList t))) :=
  .inl ⟨_, .text (.basic (.of text)), rfl⟩

/-- A key without quotes and its value are a line. -/
theorem isLine_assignment {k s : List Char} {v : Node} (full : k ≠ []) (bare : k.all isBare)
    (value : IsValue deepest s v) : IsLine (k ++ ' ' :: '=' :: ' ' :: s) (.assignment ⟨[], .ofList k, v⟩) := by
  have blank : Blanks [' '] := List.forall_mem_singleton.mpr rfl
  have isKey : IsDottedKey (k ++ [' ']) [] (.ofList k) :=
    ⟨.one (.of (b := []) nofun (.bare full (List.all_eq_true.mp bare)) blank), by decide⟩
  simpa using IsLine.assignment isKey blank value (.blanks (b := []) nofun)

/-- A header with a key without quotes is a line. -/
theorem isLine_table {k : List Char} (full : k ≠ []) (bare : k.all isBare) :
    IsLine ('[' :: (k ++ [']'])) (.header .table [] (.ofList k)) := by
  have part : IsPart ([] ++ (k ++ [])) (.ofList k) := .of nofun (.bare full (List.all_eq_true.mp bare)) nofun
  rw [List.nil_append, List.append_nil] at part
  exact .table (b := []) nofun ⟨.one part, by decide⟩ (.blanks (b := []) nofun)

/-- A file with the parameters in an order of its own, one of them left out, and with other things around them. -/
def sampleText : String :=
  "[Log]\nServer = true\n[VCenter]\nUser = \"a\\u0062\"\nPort = 443\nPassword = \"\\\"\"\nServer = \"vc\"\n[Hook]\n"

/-- The lines of this file below the header. -/
def sampleLines : List Line :=
  [.assignment ⟨[], "User", .scalar (.text "ab")⟩, .assignment ⟨[], "Port", .scalar (.integer 443)⟩,
    .assignment ⟨[], "Password", .scalar (.text "\"")⟩, .assignment ⟨[], "Server", .scalar (.text "vc")⟩,
    .header .table [] "Hook"]

theorem isDocument_sampleText : IsDocument sampleText
    ([.header .table [] "Log", .assignment ⟨[], "Server", .scalar (.boolean true)⟩] ++
      .header .table [] "VCenter" :: sampleLines) := by
  have log : IsLine "[Log]".toList _ := isLine_table (k := "Log".toList) (by decide) (by decide)
  have flag : IsLine "Server = true".toList _ :=
    isLine_assignment (k := "Server".toList) (by decide) (by decide) (.inl ⟨_, .boolTrue, rfl⟩)
  have table : IsLine "[VCenter]".toList _ := isLine_table (k := "VCenter".toList) (by decide) (by decide)
  have escaped : IsEscape "\\u0062".toList 'b' :=
    IsEscape.short (show "0062".toList.length = 4 from rfl) (List.all_eq_true.mp (by decide)) (by decide)
  have user : IsBasicText "a\\u0062".toList ['a', 'b'] := .plain (by decide) (.escape escaped .nil)
  have user : IsLine "User = \"a\\u0062\"".toList _ :=
    isLine_assignment (k := "User".toList) (by decide) (by decide) (isValue_text user)
  have digits : IsDecimal "443".toList "443".toList :=
    .digits (fun c head => by cases head; decide) (.more (by decide) (.more (by decide) (.one (by decide))))
  have number : IsInteger "443".toList 443 := IsInteger.decimal .absent digits
  have port : IsLine "Port = 443".toList _ :=
    isLine_assignment (k := "Port".toList) (by decide) (by decide) (.inl ⟨_, .integer number (by decide), rfl⟩)
  have password : IsBasicText "\\\"".toList ['"'] := .escape (.letter (by decide)) .nil
  have password : IsLine "Password = \"\\\"\"".toList _ :=
    isLine_assignment (k := "Password".toList) (by decide) (by decide) (isValue_text password)
  have server : IsBasicText "vc".toList ['v', 'c'] := .plain (by decide) (.plain (by decide) .nil)
  have server : IsLine "Server = \"vc\"".toList _ :=
    isLine_assignment (k := "Server".toList) (by decide) (by decide) (isValue_text server)
  have hook : IsLine "[Hook]".toList _ := isLine_table (k := "Hook".toList) (by decide) (by decide)
  exact .plain (.next log .feed (.next flag .feed (.next table .feed (.next user .feed (.next port .feed
    (.next password .feed (.next server .feed (.next hook .feed .nil))))))))

theorem holds_sampleText : Holds sampleText ⟨"vc", "ab", "\"", false⟩ := by
  have entries : given names (sections sampleLines).1 =
      [("User", .scalar (.text "ab")), ("Password", .scalar (.text "\"")), ("Server", .scalar (.text "vc"))] := rfl
  have states : States (given names (sections sampleLines).1) ⟨"vc", "ab", "\"", false⟩ := by
    rw [entries]
    constructor
    case right => simp [stated]
    case once => decide
    case omitted => simp [stated, keys]; rfl
  have sound : ofDocument [] [⟨.table, [], "Log", [⟨[], "Server", .scalar (.boolean true)⟩]⟩,
      ⟨.table, [], "VCenter", [⟨[], "Port", .scalar (.integer 443)⟩]⟩, ⟨.table, [], "Hook", []⟩] =
      some [("Log", .table .header [("Server", .scalar (.boolean true))]),
        ("VCenter", .table .header [("Port", .scalar (.integer 443))]), ("Hook", .table .header [])] := rfl
  have free : Free names [("Port", .scalar (.integer 443))] := show ∀ k ∈ ["Port"], k ∉ names by decide
  exact .of isDocument_sampleText states sound rfl free

/-- A file in which a user is written with an escape and whether to skip verification is left out. -/
theorem load_written_sampleText : Holds sampleText ⟨"vc", "ab", "\"", false⟩ ∧
    (Source.file defaultPath (.content (Utf8.encode sampleText))).load = .ok ⟨"vc", "ab", "\"", false⟩ :=
  ⟨holds_sampleText, (load_written defaultPath holds_sampleText).2.1 (by decide) (by decide) (by decide)⟩

end TierTagger.Configuration
