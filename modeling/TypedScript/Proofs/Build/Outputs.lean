import Mathlib.Data.List.Nodup
import Mathlib.Logic.Relation
import TypedScript.Proofs.Build.Units
import TypedScript.Proofs.Files.Tree

/-!
# Where modules go

The module of a file lies below the directory of all modules as the file lies below the base. Dots and slashes at
the start of its path are left out, so this holds only of files whose path from the base starts with neither.

* `Lies`: how a file lies below the base.
* `Touches`: what is done to a disk at a time.
* `outputs_apart`: no module is lost.
-/

namespace TypedScript.Build

open TypedScript.Files

/-! ### Names of modules -/

/-- A file that lies below the base, in some directories; its name there does not start with a dot. -/
structure Lies (workDir base file : String) (dirs : List String) (stem : String) : Prop where
  names : Path.names (Path.absolute workDir (Path.clean file)) =
    Path.names (Path.absolute workDir base) ++ (dirs ++ [stem ++ ".ts"])
  shown : ∀ first ∈ (dirs ++ [stem ++ ".ts"]).head?, first.toList.head? ≠ some '.'

section

variable {workDir base file stem : String} {dirs : List String}

theorem intercalate_append_last (dirs : List String) (a b : String) :
    "/".intercalate (dirs ++ [a ++ b]) = "/".intercalate (dirs ++ [a]) ++ b := by
  cases dirs with
  | nil => simp
  | cons d ds =>
    have hne : d :: ds ≠ [] := List.cons_ne_nil d ds
    rw [String.intercalate_append_of_ne_nil hne (List.cons_ne_nil _ _), String.intercalate_append_of_ne_nil hne
      (List.cons_ne_nil _ _),
      String.intercalate_singleton, String.intercalate_singleton]
    exact String.append_assoc.symm

theorem Lies.isName (h : Lies workDir base file dirs stem) (hworkDir : Path.isAbsolute workDir = true) :
    ∀ n ∈ dirs ++ [stem ++ ".ts"], Path.IsName n := by
  intro n hn
  refine Path.isName_of_mem_names (Path.isAbsolute_absolute hworkDir (Path.clean file)) ?_
  rw [h.names]
  exact List.mem_append_right _ hn

/-- The first character of the path from the base. -/
theorem Lies.head?_ne (h : Lies workDir base file dirs stem) (hworkDir : Path.isAbsolute workDir = true) :
    ∃ c, c ≠ '.' ∧ c ≠ '/' ∧ ("/".intercalate (dirs ++ [stem ++ ".ts"])).toList.head? = some c := by
  have hnames := h.isName hworkDir
  have hshown := h.shown
  cases hparts : dirs ++ [stem ++ ".ts"] with
  | nil => exact absurd hparts (by simp)
  | cons first rest =>
    rw [hparts] at hnames hshown
    have hfirst := (List.forall_mem_cons.1 hnames).1
    rw [Path.head?_intercalate hfirst.ne_empty]
    cases hcs : first.toList with
    | nil => exact absurd (String.toList_eq_nil_iff.1 hcs) hfirst.ne_empty
    | cons c cs =>
      refine ⟨c, ?_, ?_, rfl⟩
      · rintro rfl
        exact hshown first rfl (by rw [hcs]; rfl)
      · rintro rfl
        exact hfirst.slash_notMem (by rw [hcs]; exact List.mem_cons_self)

theorem Lies.displayName_eq (h : Lies workDir (Text.trim base) file dirs stem)
    (hworkDir : Path.isAbsolute workDir = true) (hbase : Text.trim base ≠ "") : displayName workDir base file =
    "/".intercalate (dirs ++ [stem ++ ".ts"]) := by
  obtain ⟨c, hdot, -, hhead⟩ := h.head?_ne hworkDir
  have hrelative := Path.relative_of_names (Path.isAbsolute_absolute hworkDir (Text.trim base))
    (Path.isAbsolute_absolute hworkDir (Path.clean file)) h.names (by simp)
  have hne : "/".intercalate (dirs ++ [stem ++ ".ts"]) ≠ "." := by
    intro heq
    rw [heq] at hhead
    exact hdot (Option.some.inj hhead).symm
  have hdots : ("/".intercalate (dirs ++ [stem ++ ".ts"])).startsWith ".." = false := by
    rw [String.startsWith_string_eq_false_iff]
    rintro ⟨rest, hrest⟩
    rw [← hrest] at hhead
    exact hdot (Option.some.inj hhead).symm
  unfold displayName
  dsimp only
  rw [if_neg hbase, hrelative]
  dsimp only
  rw [hdots, if_pos (by simp [hne])]

theorem Lies.outputName_eq (h : Lies workDir base file dirs stem) (hworkDir : Path.isAbsolute workDir = true) :
    outputName ("/".intercalate (dirs ++ [stem ++ ".ts"])) = "/".intercalate (dirs ++ [stem ++ ".ll"]) := by
  obtain ⟨c, hdot, hslash, hhead⟩ := h.head?_ne hworkDir
  have hts : (".ts" : String) = "." ++ "ts" := rfl
  rw [intercalate_append_last] at hhead
  unfold outputName
  rw [intercalate_append_last, intercalate_append_last, hts, ← String.append_assoc,
    Path.withoutExtension_append (by decide) (by decide)]
  rw [← String.toList_inj, String.toList_ofList]
  cases hcs : ("/".intercalate (dirs ++ [stem])).toList with
  | nil =>
    rw [String.toList_append, hcs] at hhead
    exact absurd (Option.some.inj hhead).symm hdot
  | cons c' cs =>
    rw [String.toList_append, hcs] at hhead ⊢
    obtain rfl : c' = c := Option.some.inj hhead
    rw [List.cons_append, List.dropWhile_cons_of_neg (by simp [hdot, hslash])]

/-- The names of a module below the directory of all modules. -/
theorem Lies.isName_module (h : Lies workDir base file dirs stem) (hworkDir : Path.isAbsolute workDir = true) :
    ∀ n ∈ dirs ++ [stem ++ ".ll"], Path.IsName n := by
  have hnames := h.isName hworkDir
  intro n hn
  rcases List.mem_append.1 hn with hn | hn
  · exact hnames n (List.mem_append_left _ hn)
  · obtain rfl := List.mem_singleton.1 hn
    have hslash := (hnames (stem ++ ".ts") (List.mem_append_right _ (List.mem_singleton.2 rfl))).slash_notMem
    rw [String.toList_append, List.mem_append, not_or] at hslash
    have hlength : 3 ≤ (stem ++ ".ll").length := by
      rw [String.length_append]
      exact Nat.le_add_left 3 stem.length
    refine ⟨⟨?_, ?_⟩, ?_, ?_⟩
    · exact fun heq => absurd (heq ▸ hlength) (by decide)
    · rw [String.toList_append, List.mem_append, not_or]
      exact ⟨hslash.1, by decide⟩
    · exact fun heq => absurd (heq ▸ hlength) (by decide)
    · exact fun heq => absurd (heq ▸ hlength) (by decide)

end

/-- The directory that the modules of a request go to. -/
def Request.moduleDir (r : Request) : String := if r.outDir = "" then "." else r.outDir

theorem Request.moduleDir_ne (r : Request) : r.moduleDir ≠ "" := by
  unfold moduleDir
  split
  · decide
  · assumption

/-- The path leads to a directory and from there on through names only. -/
structure Below (dir path : String) (rest : List String) : Prop where
  isAbsolute : Path.isAbsolute path = Path.isAbsolute dir
  isName : ∀ n ∈ rest, Path.IsName n
  components : Path.components path = Path.names dir ++ rest

section

variable {r : Request} {workDir file : String} {dirs : List String} {stem : String}

/-- The module of a file lies where the file lies below the base. -/
theorem Lies.below (h : Lies workDir (Text.trim r.base) file dirs stem) (hworkDir : Path.isAbsolute workDir = true)
    (hbase : Text.trim r.base ≠ "") : Below r.moduleDir (r.product workDir file).output
    (dirs ++ [stem ++ ".ll"]) := by
  have hnames := h.isName_module hworkDir
  have hcomponents := Path.components_intercalate fun n hn => (hnames n hn).toIsPart
  have houtput : (r.product workDir file).output =
    Path.join [r.moduleDir, "/".intercalate (dirs ++ [stem ++ ".ll"])] := by
    rw [Request.product, h.displayName_eq hworkDir hbase, h.outputName_eq hworkDir, Request.moduleDir]
  have hne : "/".intercalate (dirs ++ [stem ++ ".ll"]) ≠ "" := by
    rw [Ne, Path.intercalate_eq_empty fun n hn => (hnames n hn).toIsPart]
    simp
  have hjoin := Path.names_join r.moduleDir_ne hne (by rw [hcomponents]; exact hnames)
  refine ⟨?_, hnames, ?_⟩
  · rw [houtput, Path.isAbsolute_join r.moduleDir_ne hne]
  · rw [hcomponents] at hjoin
    rw [houtput, ← hjoin, Path.join_eq r.moduleDir_ne hne, Path.components_clean, Path.names_clean, if_neg]
    rintro ⟨-, hnil⟩
    rw [← Path.names_clean, ← Path.join_eq r.moduleDir_ne hne, hjoin] at hnil
    simp at hnil

end

/-- Where a path below a directory leads. -/
theorem Below.place_eq {dir path : String} {rest : List String} (h : Below dir path rest) (t : Tree) :
    t.place path = Tree.walk (if Path.isAbsolute dir then [] else t.workDir) (Path.names dir) ++ rest := by
  rw [Tree.place, h.isAbsolute, h.components, Tree.walk_append, Tree.walk_of_names h.isName]

/-! ### Modules on a disk -/

/-- The unit of a file that was looked at. -/
def Prepared.product : Prepared → Product
  | unreadable p => p
  | kept p _ => p
  | fresh p _ => p

/-- Of two files that lie below the base in different places the modules go to different places. -/
theorem Lies.place_ne {r : Request} {workDir f g : String} {dirs dirs' : List String} {stem stem' : String}
    (hf : Lies workDir (Text.trim r.base) f dirs stem) (hg : Lies workDir (Text.trim r.base) g dirs' stem')
    (hworkDir : Path.isAbsolute workDir = true) (hbase : Text.trim r.base ≠ "")
    (hne : Path.absolute workDir (Path.clean f) ≠ Path.absolute workDir (Path.clean g)) (t : Tree) :
    t.place (r.product workDir f).output ≠ t.place (r.product workDir g).output := by
  intro heq
  rw [(hf.below hworkDir hbase).place_eq, (hg.below hworkDir hbase).place_eq, List.append_cancel_left_eq] at heq
  obtain ⟨rfl, hstem⟩ := List.append_inj' heq rfl
  obtain rfl : stem = stem' := by
    rw [List.singleton_inj, ← String.toList_inj, String.toList_append, String.toList_append,
      List.append_cancel_right_eq,
      String.toList_inj] at hstem
    exact hstem
  exact hne (Path.absolute_eq_of_names hworkDir (hf.names.trans hg.names.symm))

/-- What is done to a disk at a time: a directory is made, or a file is written whose path is one of the given
ones. -/
inductive Touches (paths : String → Prop) : Tree → Tree → Prop
  | makeDir {t t' : Tree} {dir : String} (h : t.makeDir dir = .ok t') : Touches paths t t'
  | write {t t' : Tree} {path : String} {bytes : List UInt8} (hpath : paths path)
      (h : t.write path bytes = .ok t') :
    Touches paths t t'

open Relation

variable {paths : String → Prop}

/-- Directories stay, and so do the files that none of the paths leads to. -/
theorem keeps_of_touches {t t' : Tree} (h : ReflTransGen (Touches paths) t t') :
    Tree.Keeps (fun p => ∃ path, paths path ∧ p = t.place path) t t' := by
  induction h with
  | refl => exact .refl _ t
  | tail _ hstep ih =>
    refine ih.trans ?_
    cases hstep with
    | makeDir hmake => exact Tree.keeps_makeDir hmake _
    | write hpath hwrite => exact (Tree.keeps_write hwrite).mono fun p hp => ⟨_, hpath, hp.trans (ih.place_eq _)⟩

/-- The computation touches a disk in this way only, whether or not it succeeds. -/
def Moves {α : Type} (paths : String → Prop) (act : StateM Tree α) : Prop :=
  ∀ t, ReflTransGen (Touches paths) t (act.run t).2

section

variable {α β : Type}

theorem moves_pure (a : α) : Moves paths (pure a) := fun _ => .refl

theorem Moves.bind {act : StateM Tree α} {f : α → StateM Tree β} (h : Moves paths act)
    (hf : ∀ a, Moves paths (f a)) :
    Moves paths (act >>= f) := fun t => (h t).trans (hf _ _)

theorem moves_changeTree {f : Tree → Except Cause Tree} (h : ∀ t t', f t = .ok t' → Touches paths t t') :
    Moves paths (changeTree f) := by
  intro t
  change ReflTransGen (Touches paths) t (changeTree f t).2
  unfold changeTree
  split
  · exact .single (h t _ ‹_›)
  · exact .refl

/-- A file is written to only if its path is one of the given ones. -/
def Query.Within (paths : String → Prop) : Query → Prop
  | write path _ => paths path
  | _ => True

theorem moves_ask {q : Query} (h : q.Within paths) : Moves paths (q.ask (m := StateM Tree)) := by
  cases q with
  | makeDir path => exact moves_changeTree fun _ _ => .makeDir
  | write path bytes => exact moves_changeTree fun _ _ => .write h
  | _ => exact fun _ => .refl

/-- Work that asks nothing else does nothing else. -/
theorem moves_perform {w : Work α} {T : Event → Prop} (h : w.Asks (Query.Within paths) T) (es : List Event) :
    Moves paths ((w.perform (m := StateM Tree)).run es) := by
  induction w generalizing es with
  | done a => exact moves_pure _
  | tell e rest ih => exact ih h.2 _
  | ask q next ih => exact (moves_ask h.1).bind fun answer => ih answer (h.2 answer) es

/-- A unit that fails asks nothing. -/
theorem asks_fail (p : Product) (stage message : String) :
    (liftM (p.fail stage message) : ExceptT Ir.Fault Work Product).run.Asks (Query.Within paths) fun _ => True :=
  Work.Asks.lift ⟨trivial, trivial⟩

theorem asks_writtenModule {path : String} (h : paths path) (ir : String) :
    (liftM (writeModule path ir).run : ExceptT Ir.Fault Work (Except String PUnit)).run.Asks (Query.Within paths)
      fun _ => True :=
  (Work.asks_writeModule (fun _ => trivial) (fun _ => trivial) h).lift

/-- A unit that was compiled writes its module and its entry in the cache. -/
theorem asks_writeProduct (r : Request) (p : Product) (hout : paths p.output)
    (hcache : ∀ c ∈ r.cache, ∀ key, paths (c.pathOf key)) (key : List UInt8) (u : Compile.Unit) :
    (writeProduct r p key u).run.Asks (Query.Within paths) fun _ => True := by
  refine ⟨trivial, ?_⟩
  refine (asks_writtenModule hout u.ir).bindExcept fun result => ?_
  cases result with
  | error message => exact asks_fail _ _ _
  | ok _ =>
    dsimp only
    cases hc : r.cache with
    | none => exact ⟨trivial, trivial⟩
    | some c =>
      have hput : (liftM (c.put (m := Work) r.codec key (.ofUnit u)) : ExceptT Ir.Fault Work PUnit).run.Asks
          (Query.Within paths) fun _ => True :=
        (Work.asks_put (fun _ => trivial) (fun _ => trivial) (hcache c hc key)).lift
      exact hput.bindExcept fun _ => ⟨trivial, trivial⟩

/-- A unit that is brought to its end makes directories and writes its module and its entry in the cache, and no
other file. -/
theorem asks_finish (r : Request) (q : Prepared) (hout : paths q.product.output)
    (hcache : ∀ c ∈ r.cache, ∀ key, paths (c.pathOf key)) :
    (finish r q).run.Asks (Query.Within paths) fun _ => True := by
  have hread (path : String) : (liftM (readFile (m := Work) path).run :
      ExceptT Ir.Fault Work (Except Failure (List UInt8))).run.Asks (Query.Within paths) fun _ => True :=
    (Work.asks_read (fun _ => trivial) path).lift
  unfold finish
  cases q with
  | unreadable p => trivial
  | kept p ir =>
    dsimp only
    refine (asks_writtenModule hout ir).bindExcept fun result => ?_
    cases result with
    | error message => exact asks_fail _ _ _
    | ok _ => exact ⟨trivial, trivial⟩
  | fresh p key =>
    dsimp only
    refine (hread p.path).bindExcept fun result => ?_
    cases result with
    | error f => exact asks_fail _ _ _
    | ok source =>
      dsimp only
      rw [ExceptT.run_bind]
      obtain ⟨es, hrun, -⟩ := compileProduct_eq r p source
      rw [hrun, Work.telling_bind]
      refine Work.asks_telling (fun _ _ => trivial) ?_
      cases Compile.compile r.options (sourceFile p.path source).1 (sourceFile p.path source).2 with
      | error f => trivial
      | ok u =>
        change Work.Asks (Query.Within paths) (fun _ => True) (ExceptT.run (if _ then _ else _))
        split
        · trivial
        · exact asks_writeProduct r (p.compiled u) hout hcache key u

end

/-! ### Entries of the cache -/

theorem slash_notMem_hex (bytes : List UInt8) : '/' ∉ (Digest.hex bytes).toList := by
  have hdigit : ∀ n < 16, Digest.hexDigit n ≠ '/' := by decide
  rw [Digest.hex, String.toList_ofList]
  intro hmem
  obtain ⟨b, -, hb⟩ := List.mem_flatMap.1 hmem
  have hlt : b.toNat < 256 := b.toNat_lt
  simp only [List.mem_cons, List.not_mem_nil, or_false] at hb
  rcases hb with hb | hb
  · exact hdigit _ (by omega) hb.symm
  · exact hdigit _ (by omega) hb.symm

/-- The name of an entry is put together from its key. -/
theorem isName_entry (key : List UInt8) : Path.IsName (Digest.hex key ++ ".mp") := by
  have hlength : 3 ≤ (Digest.hex key ++ ".mp").length := by
    rw [String.length_append]
    exact Nat.le_add_left 3 _
  refine ⟨⟨?_, ?_⟩, ?_, ?_⟩
  · exact fun heq => absurd (heq ▸ hlength) (by decide)
  · rw [String.toList_append, List.mem_append, not_or]
    exact ⟨slash_notMem_hex key, by decide⟩
  · exact fun heq => absurd (heq ▸ hlength) (by decide)
  · exact fun heq => absurd (heq ▸ hlength) (by decide)

theorem place_pathOf (c : Cache) (key : List UInt8) (t : Tree) :
    ∃ p, t.place (c.pathOf key) = p ++ [Digest.hex key ++ ".mp"] := by
  have hname := isName_entry key
  have htail : Path.components (Digest.hex key ++ ".mp") = [] ++ [Digest.hex key ++ ".mp"] :=
    Path.components_of_isPart hname.toIsPart
  exact Tree.place_join_last hname htail [c.dir, "units", ((Digest.hex key).take 2).toString] t

/-- The place of an entry has a name that ends in a certain way. -/
theorem place_pathOf_ne {c : Cache} {key : List UInt8} {t : Tree} {p : Place} {cs : List Char} {l : Char}
    (hl : l ≠ 'p') :
    t.place (c.pathOf key) ≠ p ++ [String.ofList (cs ++ [l])] := by
  obtain ⟨p', hp'⟩ := place_pathOf c key t
  intro heq
  rw [hp'] at heq
  have hname := List.singleton_inj.1 (List.append_inj' heq rfl).2
  have hlast := congrArg (fun s => s.toList.getLast?) hname
  have hp : ".mp".toList.getLast? = some 'p' := by decide
  simp only [String.toList_append, String.toList_ofList, List.getLast?_append, List.getLast?_singleton,
    Option.some_or, hp] at hlast
  exact hl (Option.some.inj hlast).symm

/-- The name of a module ends with the letter of its extension, whatever file it is made of. -/
theorem place_output (r : Request) (workDir file : String) (t : Tree) :
    ∃ p cs, t.place (r.product workDir file).output = p ++ [String.ofList (cs ++ ['l'])] := by
  obtain ⟨cs, hcs⟩ : ∃ cs, outputName (displayName workDir r.base file) = String.ofList (cs ++ ['l']) := by
    have hdrop (cs : List Char) : ∃ cs', (cs ++ ['l']).dropWhile (fun c => c = '.' || c = '/') = cs' ++ ['l'] := by
      induction cs with
      | nil => exact ⟨[], rfl⟩
      | cons c cs ih =>
        rw [List.cons_append, List.dropWhile_cons]
        split
        · exact ih
        · exact ⟨c :: cs, rfl⟩
    obtain ⟨cs, hcs⟩ := hdrop ((Path.withoutExtension (displayName workDir r.base file)).toList ++ ['.', 'l'])
    refine ⟨cs, ?_⟩
    rw [← hcs, outputName, String.toList_append]
    simp
  obtain ⟨inner, last, hcomponents, hname⟩ := Path.components_append_char cs (c := 'l') (by decide) (by decide)
  rw [← hcs] at hcomponents
  obtain ⟨p, hp⟩ := Tree.place_join_last hname hcomponents [if r.outDir = "" then "." else r.outDir] t
  exact ⟨p, last, hp⟩

/-- No module is kept in the place of an entry. -/
theorem place_output_ne (r : Request) (workDir file : String) (c : Cache) (key : List UInt8) (t : Tree) :
    t.place (r.product workDir file).output ≠ t.place (c.pathOf key) := by
  obtain ⟨p, cs, hplace⟩ := place_output r workDir file t
  rw [hplace]
  exact (place_pathOf_ne (by decide)).symm

/-! ### The modules of a build -/

namespace Request

variable (r : Request) (workDir file : String)

/-- The paths of the entries of the cache. -/
def IsEntry (path : String) : Prop := ∃ c ∈ r.cache, ∃ key, path = c.pathOf key

/-- The paths that the unit of a file may write to. -/
def Writes (path : String) : Prop := path = (r.product workDir file).output ∨ r.IsEntry path

/-- The paths that the units of the other files may write to. -/
def OthersWrite (path : String) : Prop := ∃ g ∈ r.files, g ≠ file ∧ r.Writes workDir g path

end Request

/-- Files below the base, whose names there do not start with a dot and which have different absolute paths, have
their modules in different places, all of them below the directory of all modules. The unit of a file does nothing
to a disk but make directories and write its module and entries of the cache. So once a module is written it stays
as it is, whatever the units of the other files do, in whatever order. -/
theorem outputs_apart {r : Request} {workDir : String} (hworkDir : Path.isAbsolute workDir = true)
    (hbase : Text.trim r.base ≠ "")
    (hlies : ∀ f ∈ r.files, ∃ dirs stem, Lies workDir (Text.trim r.base) f dirs stem)
    (hapart : (r.files.map fun f => Path.absolute workDir (Path.clean f)).Nodup) :
    (r.files.map fun f => (r.product workDir f).output).Nodup ∧
      ∀ f ∈ r.files, (∃ rest, rest ≠ [] ∧ Below r.moduleDir (r.product workDir f).output rest) ∧
        (∀ q : Prepared, q.product.output = (r.product workDir f).output → ∀ es,
          Moves (r.Writes workDir f) (((finish r q).run.perform (m := StateM Tree)).run es)) ∧
        ∀ (t t₁ t₂ : Tree) (bytes : List UInt8), t.write (r.product workDir f).output bytes = .ok t₁ →
          ReflTransGen (Touches (r.OthersWrite workDir f)) t₁ t₂ → t₂.read (r.product workDir f).output =
            .ok bytes := by
  have hne : ∀ f ∈ r.files, ∀ g ∈ r.files, f ≠ g → ∀ t : Tree,
      t.place (r.product workDir f).output ≠ t.place (r.product workDir g).output := by
    intro f hf g hg hfg t
    obtain ⟨dirs, stem, hlf⟩ := hlies f hf
    obtain ⟨dirs', stem', hlg⟩ := hlies g hg
    exact hlf.place_ne hlg hworkDir hbase (fun heq => hfg (List.inj_on_of_nodup_map hapart hf hg heq)) t
  refine ⟨?_, fun f hf => ⟨?_, fun q hq es => ?_, fun t t₁ t₂ bytes hwrite hothers => ?_⟩⟩
  · refine (List.nodup_map_iff_inj_on (List.Nodup.of_map _ hapart)).2 fun f hf g hg heq => ?_
    by_contra hfg
    exact hne f hf g hg hfg {} (by rw [heq])
  · obtain ⟨dirs, stem, hlf⟩ := hlies f hf
    exact ⟨dirs ++ [stem ++ ".ll"], by simp, hlf.below hworkDir hbase⟩
  · exact moves_perform (asks_finish r q (.inl hq) fun c hc key => .inr ⟨c, hc, key, rfl⟩) es
  · refine (keeps_of_touches hothers).read (Tree.read_of_write hwrite) ?_
    rintro ⟨path, ⟨g, hg, hgf, rfl | ⟨c, -, key, rfl⟩⟩, hplace⟩
    · exact hne f hf g hg hgf.symm t₁ hplace
    · exact place_output_ne r workDir f c key t₁ hplace

/-- A dot at the start of a name is left out. -/
example : outputName ".a.ts" = outputName "a.ts" := by decide +kernel

/-- Two files of one name in different directories. -/
def twoDirectories : Request :=
  { files := ["src/a.ts", "/w/src/lib/../lib/a.ts"], base := "src", outDir := "../out" }

theorem outputs_twoDirectories :
    twoDirectories.files.map (fun f => (twoDirectories.product "/w" f).output) =
      ["../out/a.ll", "../out/lib/a.ll"] ∧
      ∀ (t t₁ t₂ : Tree) (bytes : List UInt8), t.write
        (twoDirectories.product "/w" "src/a.ts").output bytes = .ok t₁ →
        ReflTransGen (Touches (twoDirectories.OthersWrite "/w" "src/a.ts")) t₁ t₂ →
          t₂.read (twoDirectories.product "/w" "src/a.ts").output = .ok bytes := by
  have hlies : ∀ f ∈ twoDirectories.files, ∃ dirs stem, Lies "/w" (Text.trim twoDirectories.base) f dirs stem := by
    intro f hf
    simp only [twoDirectories, List.mem_cons, List.not_mem_nil, or_false] at hf
    rcases hf with rfl | rfl
    · exact ⟨[], "a", by decide +kernel, by decide +kernel⟩
    · exact ⟨["lib"], "a", by decide +kernel, by decide +kernel⟩
  have hnonempty : Text.trim twoDirectories.base ≠ "" := by decide +kernel
  have hapart : (twoDirectories.files.map fun f => Path.absolute "/w" (Path.clean f)).Nodup := by decide +kernel
  have happly := outputs_apart (by decide +kernel) hnonempty hlies hapart
  refine ⟨by decide +kernel, (happly.2 "src/a.ts" ?_).2.2⟩
  exact List.mem_cons_self

end TypedScript.Build
