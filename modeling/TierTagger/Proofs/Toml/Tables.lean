import TierTagger.Toml.Document
import Mathlib.Data.List.Basic

/-!
# Entries that others do not see

What is put into a table under some names makes no difference to what is put under others.

* `Joins`: a table, and the same with entries of the given names in addition.
* `Frames`: a change of a table that does to the second what it does to the first, as far as no entry of
  these names comes about. All changes are such: `frames_assign`, `frames_within`, `frames_addTable` and
  `frames_addElement`.
* `Acts`: a change of a document that changes one of its tables, while what comes out around it is the same
  whatever is in this table. All sections are such once the table has its header: `acts_sections`.
* `ofDocument_joins`: assignments of names that nothing else in their table has are there in addition.
-/

namespace TierTagger.Toml.Entries

variable {N : List String} {key : String} {v : Node} {es es' r extra : Entries} {op op' : Entries → Option Entries}

/-- The keys of a table. -/
def keys (es : Entries) : List String := es.map (·.1)

@[simp] theorem keys_append (es es' : Entries) : keys (es ++ es') = keys es ++ keys es' := List.map_append

/-- No entry has one of the names. -/
def Free (N : List String) (es : Entries) : Prop := ∀ k ∈ keys es, k ∉ N

/-- The second table has the entries of the first and those others, which are the ones with the names. -/
structure Joins (N : List String) (extra es es' : Entries) : Prop where
  others : es'.filter (fun e => !N.contains e.1) = es
  named : es'.filter (fun e => N.contains e.1) = extra

/-- A change that does the same to both tables. -/
structure Frames (N : List String) (op : Entries → Option Entries) : Prop where
  free : ∀ {es r}, op es = some r → Free N r → Free N es
  joins : ∀ {es es' r extra}, op es = some r → Free N r → Joins N extra es es' →
    ∃ r', op es' = some r' ∧ Joins N extra r r'

/-! ## Joined tables -/

theorem joins_self (free : Free N es) : Joins N [] es es := by
  have outside : ∀ e ∈ es, N.contains e.1 = false := fun e mem => by
    simpa using free e.1 (List.mem_map_of_mem mem)
  constructor
  · exact List.filter_eq_self.mpr fun e mem => by rw [outside e mem]; rfl
  · exact List.filter_eq_nil_iff.mpr fun e mem => by rw [outside e mem]; exact Bool.false_ne_true

theorem lookup_filter (p : String × Node → Bool) (all : ∀ v, p (key, v)) :
    (es.filter p).lookup key = es.lookup key := by
  induction es with
  | nil => rfl
  | cons e es ih =>
    obtain ⟨k, v⟩ := e
    by_cases same : key = k
    · subst same
      simp [all]
    · have other : (key == k) = false := beq_false_of_ne same
      by_cases kept : p (k, v)
      · rw [List.filter_cons_of_pos kept, List.lookup_cons, List.lookup_cons, other]
        exact ih
      · rw [List.filter_cons_of_neg kept, List.lookup_cons, other]
        exact ih

theorem Joins.lookup (joins : Joins N extra es es') (other : key ∉ N) : es'.lookup key = es.lookup key := by
  rw [← joins.others]
  exact (lookup_filter _ fun v => by simpa using other).symm

theorem Joins.lookup_named (joins : Joins N extra es es') (named : key ∈ N) :
    es'.lookup key = extra.lookup key := by
  rw [← joins.named]
  exact (lookup_filter _ fun v => by simpa using named).symm

theorem Joins.append (joins : Joins N extra es es') (other : key ∉ N) (v : Node) :
    Joins N extra (es ++ [(key, v)]) (es' ++ [(key, v)]) := by
  constructor
  · rw [List.filter_append, joins.others]
    simp [other]
  · rw [List.filter_append, joins.named]
    simp [other]

theorem Joins.append_named (joins : Joins N extra es es') (named : key ∈ N) (v : Node) :
    Joins N (extra ++ [(key, v)]) es (es' ++ [(key, v)]) := by
  constructor
  · rw [List.filter_append, joins.others]
    simp [named]
  · rw [List.filter_append, joins.named]
    simp [named]

/-! ## Changes -/

theorem lookup_eq_none : es.lookup key = none ↔ key ∉ keys es := by
  induction es with
  | nil => simp [keys]
  | cons e es ih =>
    obtain ⟨k, v⟩ := e
    by_cases same : key = k
    · subst same
      simp [keys]
    · have other : (key == k) = false := beq_false_of_ne same
      rw [List.lookup_cons, other]
      simpa [keys, same] using ih

theorem frames_some : Frames N some where
  free same free := by cases same; exact free
  joins same _ joins := by cases same; exact ⟨_, rfl, joins⟩

theorem Frames.bind (first : Frames N op) (next : Frames N op') : Frames N fun es => (op es).bind op' where
  free both free := by
    obtain ⟨mid, at_mid, at_r⟩ := Option.bind_eq_some_iff.mp both
    exact first.free at_mid (next.free at_r free)
  joins both free joins := by
    obtain ⟨mid, at_mid, at_r⟩ := Option.bind_eq_some_iff.mp both
    obtain ⟨mid', at_mid', joins⟩ := first.joins at_mid (next.free at_r free) joins
    obtain ⟨r', at_r', joins⟩ := next.joins at_r free joins
    exact ⟨r', by rw [at_mid']; exact at_r', joins⟩

theorem frames_foldlM {α : Type} {step : Entries → α → Option Entries} (each : ∀ a, Frames N (step · a))
    (as : List α) : Frames N (as.foldlM step ·) := by
  induction as with
  | nil => exact frames_some
  | cons a as ih =>
    simp only [List.foldlM_cons]
    exact (each a).bind ih

/-- A change that leaves a key behind and removes none does the same to both tables if it does so where the key
is none of the names. -/
theorem Frames.of_key (key : String)
    (adds : ∀ {es r}, op es = some r → key ∈ keys r ∧ ∀ k ∈ keys es, k ∈ keys r)
    (joins : ∀ {es es' r extra}, key ∉ N → op es = some r → Joins N extra es es' →
      ∃ r', op es' = some r' ∧ Joins N extra r r') : Frames N op where
  free made free k mem := free k ((adds made).2 k mem)
  joins made free := joins (free key (adds made).1) made

theorem put_eq_some : put key v es = some r ↔ key ∉ keys es ∧ r = es ++ [(key, v)] := by
  rw [put, ← lookup_eq_none]
  cases es.lookup key <;> simp [eq_comm]

theorem frames_put (key : String) (v : Node) : Frames N (put key v) := by
  refine .of_key key (fun made => ?_) fun other made joins => ?_
  · obtain ⟨-, rfl⟩ := put_eq_some.mp made
    rw [keys_append]
    exact ⟨List.mem_append_right _ (.head _), fun k mem => List.mem_append_left _ mem⟩
  · obtain ⟨absent, rfl⟩ := put_eq_some.mp made
    have absent' := lookup_eq_none.mp (joins.lookup other ▸ lookup_eq_none.mpr absent)
    exact ⟨_, put_eq_some.mpr ⟨absent', rfl⟩, joins.append other v⟩

theorem keys_alter {f : Option Node → Option Node} (made : alter key f es = some r) :
    keys r = if key ∈ keys es then keys es else keys es ++ [key] := by
  induction es generalizing r with
  | nil =>
    obtain ⟨w, -, rfl⟩ := Option.map_eq_some_iff.mp made
    rfl
  | cons e es ih =>
    obtain ⟨k, v⟩ := e
    rw [alter] at made
    split at made
    · rename_i same
      obtain ⟨w, -, rfl⟩ := Option.map_eq_some_iff.mp made
      simp [keys, same]
    · rename_i apart
      obtain ⟨t, rest, rfl⟩ := Option.map_eq_some_iff.mp made
      have listed : key ∈ keys ((k, v) :: es) ↔ key ∈ keys es := by simp [keys, Ne.symm apart]
      show k :: keys t = if key ∈ keys ((k, v) :: es) then k :: keys es else k :: keys es ++ [key]
      rw [ih rest, if_congr listed rfl rfl]
      split <;> rfl

theorem joins_alter {f : Option Node → Option Node} (other : key ∉ N) (made : alter key f es = some r)
    (joins : Joins N extra es es') : ∃ r', alter key f es' = some r' ∧ Joins N extra r r' := by
  obtain ⟨rfl, rfl⟩ := joins
  induction es' generalizing r with
  | nil =>
    refine ⟨r, made, ?_⟩
    obtain ⟨w, -, rfl⟩ := Option.map_eq_some_iff.mp made
    exact ⟨by simp [other], by simp [other]⟩
  | cons e es ih =>
    obtain ⟨k, v⟩ := e
    by_cases named : k ∈ N
    · have apart : k ≠ key := fun same => other (same ▸ named)
      rw [List.filter_cons_of_neg (by simpa using named)] at made
      obtain ⟨r', at_r', others, kept⟩ := ih made
      refine ⟨(k, v) :: r', by rw [alter, if_neg apart, at_r']; rfl, ?_, ?_⟩
      · rw [List.filter_cons_of_neg (by simpa using named), others]
      · rw [List.filter_cons_of_pos (by simpa using named), List.filter_cons_of_pos (by simpa using named), kept]
    · rw [List.filter_cons_of_pos (by simpa using named), alter] at made
      rw [List.filter_cons_of_neg (by simpa using named), alter]
      split at made
      · rename_i same
        obtain ⟨w, at_w, rfl⟩ := Option.map_eq_some_iff.mp made
        refine ⟨(k, w) :: es, by rw [if_pos same, at_w]; rfl, ?_, ?_⟩
        · rw [List.filter_cons_of_pos (by simpa using named)]
        · rw [List.filter_cons_of_neg (by simpa using named)]
      · rename_i apart
        obtain ⟨t, at_t, rfl⟩ := Option.map_eq_some_iff.mp made
        obtain ⟨r', at_r', others, kept⟩ := ih at_t
        refine ⟨(k, v) :: r', by rw [if_neg apart, at_r']; rfl, ?_, ?_⟩
        · rw [List.filter_cons_of_pos (by simpa using named), others]
        · rw [List.filter_cons_of_neg (by simpa using named), kept]

theorem frames_alter (key : String) (f : Option Node → Option Node) : Frames N (alter key f) := by
  refine .of_key key (fun made => ?_) joins_alter
  rw [keys_alter made]
  split
  · rename_i listed
    exact ⟨listed, fun k mem => mem⟩
  · exact ⟨List.mem_append_right _ (.head _), fun k mem => List.mem_append_left _ mem⟩

theorem frames_assign (key : String) (v : Node) (path : List String) : Frames N (assign key v path) := by
  cases path with
  | nil => exact frames_put key v
  | cons k path => exact frames_alter k _

theorem frames_assignAll (as : List Assignment) : Frames N (assignAll as) :=
  frames_foldlM (fun a => frames_assign a.key a.value a.path) as

theorem Joins.without (joins : Joins N extra es es') (other : key ∉ N) :
    Joins N extra (es.filter (·.1 ≠ key)) (es'.filter (·.1 ≠ key)) := by
  constructor
  · rw [List.filter_comm, joins.others]
  · rw [List.filter_comm, joins.named, List.filter_eq_self]
    intro e mem
    have named : e.1 ∈ N := by
      rw [← joins.named] at mem
      simpa using List.of_mem_filter mem
    exact decide_eq_true fun same => other (same ▸ named)

/-- A document with the entry of a table that has a header, and what is in this table. -/
def plug (key : String) (pre inner post : Entries) : Entries := pre ++ (key, .table .header inner) :: post

/-- What the header of a table does: the table is at the end then, with what was implied of it before. -/
theorem addTable_eq_some {as : List Assignment} (made : addTable key as es = some r) :
    ∃ pre before new, r = plug key pre new [] ∧ key ∉ keys pre ∧ assignAll as before = some new ∧
      (∀ k ∈ keys es, k ∈ keys r) ∧
      ∀ as', addTable key as' es = (assignAll as' before).map fun new => plug key pre new [] := by
  unfold addTable at made
  split at made
  · rename_i absent
    obtain ⟨new, at_new, put⟩ := Option.bind_eq_some_iff.mp made
    obtain ⟨absent', rfl⟩ := put_eq_some.mp put
    refine ⟨es, [], new, rfl, absent', at_new, fun k mem => ?_, fun as' => ?_⟩
    · rw [keys_append]
      exact List.mem_append_left _ mem
    · rw [addTable, absent]
      cases assignAll as' [] with
      | none => rfl
      | some new => exact put_eq_some.mpr ⟨absent', rfl⟩
  · rename_i inner implied
    obtain ⟨new, at_new, rfl⟩ := Option.map_eq_some_iff.mp made
    refine ⟨es.filter (·.1 ≠ key), inner, new, rfl, ?_, at_new, fun k mem => ?_, fun as' => ?_⟩
    · intro listed
      obtain ⟨e, mem, same⟩ := List.mem_map.mp listed
      have apart : e.1 ≠ key := by simpa using List.of_mem_filter mem
      exact apart same
    · obtain ⟨e, listed, rfl⟩ := List.mem_map.mp mem
      by_cases same : e.1 = key
      · simp [keys, same]
      · rw [keys_append]
        exact List.mem_append_left _ (List.mem_map_of_mem (List.mem_filter.mpr ⟨listed, by simpa using same⟩))
    · rw [addTable, implied]
      rfl
  · cases made

theorem frames_addTable (key : String) (as : List Assignment) : Frames N (addTable key as) := by
  refine .of_key key (fun made => ?_) fun other made joins => ?_
  · obtain ⟨pre, before, new, rfl, -, -, kept, -⟩ := addTable_eq_some made
    exact ⟨by rw [plug, keys_append]; exact List.mem_append_right _ (.head _), kept⟩
  · rename_i es es' r extra
    have same := joins.lookup other
    unfold addTable at made ⊢
    rw [same]
    split at made
    · obtain ⟨new, at_new, put⟩ := Option.bind_eq_some_iff.mp made
      obtain ⟨absent, rfl⟩ := put_eq_some.mp put
      have absent' := lookup_eq_none.mp (same ▸ lookup_eq_none.mpr absent)
      rw [at_new]
      exact ⟨_, put_eq_some.mpr ⟨absent', rfl⟩, joins.append other _⟩
    · obtain ⟨new, at_new, rfl⟩ := Option.map_eq_some_iff.mp made
      rw [at_new]
      exact ⟨_, rfl, (joins.without other).append other _⟩
    · cases made

/-- An entry with one more element. -/
def withElement (new : Entries) : Option Node → Option Node
  | none => some (.tables [new])
  | some (.tables elements) => some (.tables (elements ++ [new]))
  | some _ => none

theorem addElement_eq (key : String) {as : List Assignment} {new : Entries} (made : assignAll as [] = some new) :
    addElement key as = alter key (withElement new) := by
  funext es
  rw [addElement, made]
  rfl

theorem frames_addElement (key : String) (as : List Assignment) : Frames N (addElement key as) := by
  cases new : assignAll as [] with
  | none =>
    have never (es : Entries) : addElement key as es = none := by rw [addElement, new]; rfl
    constructor
    · intro es r made
      rw [never] at made
      cases made
    · intro es es' r extra made
      rw [never] at made
      cases made
  | some new' =>
    rw [addElement_eq key new]
    exact frames_alter key _

theorem frames_within {f : Entries → Option Entries} (frames : Frames N f) (path : List String) :
    Frames N (within f path) := by
  cases path with
  | nil => exact frames
  | cons k path => exact frames_alter k _

/-- What a section adds. -/
def sectionBody (s : Section) : Entries → Option Entries :=
  match s.kind with
  | .table => addTable s.key s.assignments
  | .element => addElement s.key s.assignments

theorem addSection_eq (es : Entries) (s : Section) : addSection es s = within (sectionBody s) s.path es := by
  unfold addSection sectionBody
  cases s.kind <;> rfl

theorem frames_sectionBody (s : Section) : Frames N (sectionBody s) := by
  unfold sectionBody
  cases s.kind
  · exact frames_addTable _ _
  · exact frames_addElement _ _

/-! ## A table within a document -/

/-- A change of a document acts on the table by a change of its own, and what comes out around the table is the
same whatever is in it. -/
def Acts (N : List String) (key : String) (op : Entries → Option Entries) (pre inner post r : Entries) : Prop :=
  ∃ pre' change inner' post', r = plug key pre' inner' post' ∧ key ∉ keys pre' ∧ change inner = some inner' ∧
    Frames N change ∧ ∀ x, op (plug key pre x post) = (change x).map fun y => plug key pre' y post'

variable {pre inner post pre' post' : Entries} {k : String} {s : Section}

theorem lookup_plug (absent : key ∉ keys pre) :
    (plug key pre inner post).lookup key = some (.table .header inner) := by
  rw [plug, List.lookup_append, lookup_eq_none.mpr absent, List.lookup_cons_self]
  rfl

theorem lookup_plug_other (other : k ≠ key) (pre x post : Entries) :
    (plug key pre x post).lookup k = (pre ++ post).lookup k := by
  rw [plug, List.lookup_append, List.lookup_append, List.lookup_cons, beq_false_of_ne other]

/-- What leaves the table alone. -/
theorem acts_around (pre' post' : Entries) (made : op (plug key pre inner post) = some r) (absent : key ∉ keys pre')
    (around : ∀ x, op (plug key pre x post) = some (plug key pre' x post')) : Acts N key op pre inner post r :=
  ⟨pre', some, inner, post', Option.some.inj (made.symm.trans (around inner)), absent, rfl, frames_some, around⟩

theorem alter_append (f : Option Node → Option Node) (pre es : Entries) : alter k f (pre ++ es) =
    if k ∈ keys pre then (alter k f pre).map (· ++ es) else (alter k f es).map (pre ++ ·) := by
  induction pre with
  | nil => simp [keys]
  | cons e pre ih =>
    obtain ⟨k', v⟩ := e
    by_cases same : k' = k
    · subst same
      cases at_w : f (some v) <;> simp [alter, keys, at_w]
    · have listed : k ∈ keys ((k', v) :: pre) ↔ k ∈ keys pre := by simp [keys, Ne.symm same]
      simp only [List.cons_append, alter, if_neg same, ih, listed]
      split <;> simp [Function.comp_def]

theorem alter_plug (f : Option Node → Option Node) (absent : key ∉ keys pre) (x : Entries) :
    alter key f (plug key pre x post) =
      (f (some (.table .header x))).map fun w => pre ++ (key, w) :: post := by
  rw [plug, alter_append, if_neg absent, alter, if_pos rfl, Option.map_map]
  rfl

theorem alter_plug_other (f : Option Node → Option Node) (other : k ≠ key) (x : Entries) :
    alter k f (plug key pre x post) = if k ∈ keys pre then (alter k f pre).map fun pre => plug key pre x post
      else (alter k f post).map fun post => plug key pre x post := by
  rw [plug, alter_append, alter, if_neg other.symm, Option.map_map]
  rfl

theorem acts_alter (f : Option Node → Option Node) (other : k ≠ key) (absent : key ∉ keys pre)
    (made : alter k f (plug key pre inner post) = some r) : Acts N key (alter k f) pre inner post r := by
  have whole := made
  rw [alter_plug_other f other] at made
  split at made
  · rename_i listed
    obtain ⟨pre', at_pre, -⟩ := Option.map_eq_some_iff.mp made
    refine acts_around pre' post whole ?_ fun x => ?_
    · rw [keys_alter at_pre, if_pos listed]
      exact absent
    · rw [alter_plug_other f other, if_pos listed, at_pre]
      rfl
  · rename_i unlisted
    obtain ⟨post', at_post, -⟩ := Option.map_eq_some_iff.mp made
    refine acts_around pre post' whole absent fun x => ?_
    rw [alter_plug_other f other, if_neg unlisted, at_post]
    rfl

theorem acts_addTable {as : List Assignment} (absent : key ∉ keys pre)
    (made : addTable k as (plug key pre inner post) = some r) : Acts N key (addTable k as) pre inner post r := by
  have whole := made
  have other : k ≠ key := by
    rintro rfl
    rw [addTable, lookup_plug absent] at made
    cases made
  have at_k x := lookup_plug_other other pre x post
  unfold addTable at made
  split at made
  · rename_i no_k
    obtain ⟨new, at_new, -⟩ := Option.bind_eq_some_iff.mp made
    refine acts_around pre (post ++ [(k, .table .header new)]) whole absent fun x => ?_
    have no_k : (plug key pre x post).lookup k = none := (at_k x).trans ((at_k inner).symm.trans no_k)
    rw [addTable, no_k]
    show (assignAll as []).bind _ = _
    rw [at_new]
    exact (put_eq_some.mpr ⟨lookup_eq_none.mp no_k, rfl⟩).trans (by simp [plug])
  · rename_i implied at_implied
    obtain ⟨new, at_new, -⟩ := Option.map_eq_some_iff.mp made
    refine acts_around (pre.filter (·.1 ≠ k)) (post.filter (·.1 ≠ k) ++ [(k, .table .header new)]) whole ?_
      fun x => ?_
    · intro listed
      obtain ⟨e, mem, rfl⟩ := List.mem_map.mp listed
      exact absent (List.mem_map_of_mem (List.mem_of_mem_filter mem))
    · have at_implied : (plug key pre x post).lookup k = some (.table .implied implied) :=
        (at_k x).trans ((at_k inner).symm.trans at_implied)
      rw [addTable, at_implied]
      show (assignAll as implied).map _ = _
      rw [at_new]
      simp [plug, other.symm]
  · cases made

theorem acts_addElement {as : List Assignment} (absent : key ∉ keys pre)
    (made : addElement k as (plug key pre inner post) = some r) : Acts N key (addElement k as) pre inner post r := by
  obtain ⟨new, at_new, -⟩ := Option.bind_eq_some_iff.mp made
  rw [addElement_eq k at_new] at made ⊢
  have other : k ≠ key := by
    rintro rfl
    rw [alter_plug _ absent] at made
    cases made
  exact acts_alter _ other absent made

/-- A section acts on a table that is there before. -/
theorem acts_addSection (absent : key ∉ keys pre) (made : addSection (plug key pre inner post) s = some r) :
    Acts N key (addSection · s) pre inner post r := by
  simp only [addSection_eq] at made ⊢
  cases path : s.path with
  | nil =>
    rw [path] at made
    unfold sectionBody at made ⊢
    cases kind : s.kind with
    | table =>
      rw [kind] at made
      exact acts_addTable absent made
    | element =>
      rw [kind] at made
      exact acts_addElement absent made
  | cons k path' =>
    rw [path] at made
    by_cases other : k ≠ key
    · exact acts_alter _ other absent made
    · obtain rfl := not_not.mp other
      rw [within, alter_plug _ absent] at made
      obtain ⟨w, inside, rfl⟩ := Option.map_eq_some_iff.mp made
      obtain ⟨inner', at_inner, rfl⟩ := Option.map_eq_some_iff.mp inside
      refine ⟨pre, within (sectionBody s) path', inner', post, rfl, absent, at_inner,
        frames_within (frames_sectionBody s) path', fun x => ?_⟩
      show within (sectionBody s) (k :: path') (plug k pre x post) = _
      rw [within, alter_plug _ absent]
      simp only [Option.map_map]
      rfl

/-- The sections behind a table act on it, each after the other. -/
theorem acts_sections {ss : List Section} (absent : key ∉ keys pre)
    (made : ss.foldlM addSection (plug key pre inner post) = some r) :
    Acts N key (ss.foldlM addSection ·) pre inner post r := by
  induction ss generalizing pre inner post with
  | nil => exact acts_around pre post made absent fun x => rfl
  | cons s ss ih =>
    obtain ⟨mid, at_mid, rest⟩ := Option.bind_eq_some_iff.mp (List.foldlM_cons.symm.trans made)
    obtain ⟨pre', change, inner', post', rfl, absent', at_inner, frames, first⟩ :=
      acts_addSection (N := N) absent at_mid
    obtain ⟨pre'', next, inner'', post'', rfl, absent'', at_inner', frames', following⟩ := ih absent' rest
    have both : (change inner).bind next = some inner'' := by rw [at_inner]; exact at_inner'
    refine ⟨pre'', fun x => (change x).bind next, inner'', post'', rfl, absent'', both, frames.bind frames',
      fun x => ?_⟩
    calc (s :: ss).foldlM addSection (plug key pre x post)
      _ = (addSection (plug key pre x post) s).bind (ss.foldlM addSection ·) := List.foldlM_cons
      _ = (change x).bind fun y => ss.foldlM addSection (plug key pre' y post') := by
          rw [show addSection _ s = _ from first x, Option.bind_map]
          rfl
      _ = ((change x).bind next).map fun y => plug key pre'' y post'' := by
          rw [Option.map_bind]
          exact Option.bind_congr fun y _ => following y

/-! ## Named assignments -/

/-- The assignment gives one of the names a value. -/
def gives (N : List String) (a : Assignment) : Bool :=
  a.path.isEmpty && N.contains a.key

/-- The entries that assignments give the names. -/
def given (N : List String) (as : List Assignment) : Entries :=
  (as.filter (gives N)).map fun a => (a.key, a.value)

/-- The other assignments. -/
def others (N : List String) (as : List Assignment) : List Assignment := as.filter (!gives N ·)

/-- Assignments of names that are not there yet add their entries, and the others do what they do without
these. -/
theorem joins_assignAll {as : List Assignment} (made : assignAll (others N as) es = some r) (free : Free N r)
    (joins : Joins N extra es es') (once : (keys (extra ++ given N as)).Nodup) :
    ∃ r', assignAll as es' = some r' ∧ Joins N (extra ++ given N as) r r' := by
  induction as generalizing es es' extra with
  | nil =>
    cases made
    exact ⟨es', rfl, by simpa [given] using joins⟩
  | cons a as ih =>
    rw [assignAll, List.foldlM_cons]
    cases known : gives N a with
    | true =>
      obtain ⟨direct, named⟩ : a.path = [] ∧ a.key ∈ N := by simpa [gives] using known
      have more : extra ++ given N (a :: as) = extra ++ [(a.key, a.value)] ++ given N as := by simp [given, known]
      rw [more] at once ⊢
      have absent : a.key ∉ keys es' := by
        rw [← lookup_eq_none, joins.lookup_named named, lookup_eq_none]
        rw [keys_append, keys_append, List.append_assoc] at once
        exact fun listed => (List.nodup_append.mp once).2.2 _ listed _ (.head _) rfl
      have put : assign a.key a.value a.path es' = some (es' ++ [(a.key, a.value)]) := by
        rw [direct]
        exact put_eq_some.mpr ⟨absent, rfl⟩
      obtain ⟨r', at_r', joins⟩ := ih (by simpa [others, known] using made) (joins.append_named named a.value) once
      exact ⟨r', by rw [put]; exact at_r', joins⟩
    | false =>
      have same : given N (a :: as) = given N as := by simp [given, known]
      have listed : others N (a :: as) = a :: others N as := by simp [others, known]
      rw [same] at once ⊢
      rw [listed, assignAll, List.foldlM_cons] at made
      obtain ⟨mid, at_mid, rest⟩ := Option.bind_eq_some_iff.mp made
      have frames := frames_assign (N := N) a.key a.value a.path
      obtain ⟨mid', at_mid', joins⟩ := frames.joins at_mid ((frames_assignAll _).free rest free) joins
      obtain ⟨r', at_r', joins⟩ := ih rest joins once
      exact ⟨r', by rw [at_mid']; exact at_r', joins⟩

/-- A document is accepted with the assignments that give names of a table their values if it is without them and
the table has none of these names. The table then has the entries that it has without them, and these. -/
theorem ofDocument_joins {as body : List Assignment} {ss ss' : List Section} (once : (keys (given N body)).Nodup)
    (made : ofDocument as (ss ++ ⟨.table, [], key, others N body⟩ :: ss') = some es)
    (inside : es.lookup key = some (.table .header inner)) (free : Free N inner) :
    ∃ es' inner', ofDocument as (ss ++ ⟨.table, [], key, body⟩ :: ss') = some es' ∧
      es'.lookup key = some (.table .header inner') ∧ Joins N (given N body) inner inner' := by
  obtain ⟨es₀, at_es₀, made⟩ := Option.bind_eq_some_iff.mp made
  rw [List.foldlM_append] at made
  obtain ⟨es₁, at_es₁, made⟩ := Option.bind_eq_some_iff.mp made
  rw [List.foldlM_cons] at made
  obtain ⟨es₂, at_es₂, made⟩ := Option.bind_eq_some_iff.mp made
  obtain ⟨pre, before, new, rfl, absent, at_new, -, header⟩ := addTable_eq_some at_es₂
  obtain ⟨pre', change, new', post', rfl, absent', at_new', frames, following⟩ := acts_sections (N := N) absent made
  obtain rfl : new' = inner := by
    rw [lookup_plug absent'] at inside
    cases inside
    rfl
  have free_new := frames.free at_new' free
  have same : Joins N [] before before := joins_self ((frames_assignAll _).free at_new free_new)
  obtain ⟨full, at_full, joins⟩ := joins_assignAll at_new free_new same once
  obtain ⟨inner', at_inner', joins⟩ := frames.joins at_new' free joins
  have at_header : addSection es₁ ⟨.table, [], key, body⟩ = some (plug key pre full []) := by
    show addTable key body es₁ = _
    rw [header, at_full]
    rfl
  refine ⟨plug key pre' inner' post', inner', ?_, lookup_plug absent', joins⟩
  rw [ofDocument, at_es₀]
  show (ss ++ _ :: ss').foldlM addSection es₀ = _
  rw [List.foldlM_append, at_es₁]
  show (_ :: ss').foldlM addSection es₁ = _
  rw [List.foldlM_cons, at_header]
  exact (following full).trans (by rw [at_inner']; rfl)

end TierTagger.Toml.Entries
