import Mathlib.Data.Set.Function
import TypedScript.Proofs.Build.Work
import TypedScript.Proofs.Build.Outputs
import TypedScript.Proofs.Compile.Renamed
import TypedScript.Proofs.Compile.Symbols
import TypedScript.Proofs.Text.Encoded

/-!
# What a cache changes

A build that uses a cache should write what it would write without one. A key belongs to one source and one choice
of settings, so an entry holds a module of the source. But the key does not tell what the file is called, and the
module does: a file may be given the module of another file with the same content, in which one line is wrong.

Entries can be read as they were written, and units are worked on in any order. As long as no two of the messages
that are digested have one digest, a key belongs to one source and one choice of settings; and entries of
different keys are kept in different places.

* `Codec.Inverts`: what was written can be read.
* `Cache.key_inj`, `settings_inj`: what a key tells.
* `place_pathOf_inj`: entries of different keys are kept apart.
* `Request.Yields`: what a file is compiled to on its own.
* `Sound`: the entries can be trusted. Builds keep it so.
* `build_brings`: what a build writes, whatever the cache was used for before.
-/

/-! ## Entries of the cache -/

namespace TypedScript.Digest

theorem length_bigEndian (n x : Nat) : (bigEndian n x).length = n := by
  induction n generalizing x with
  | zero => rfl
  | succ n ih => rw [bigEndian, List.length_append, ih]; rfl

theorem length_sha256 (message : List UInt8) : (sha256 message).length = 32 := by
  rw [sha256, List.length_flatMap]
  simp only [length_bigEndian]
  rfl

theorem hex_injective : Function.Injective hex := by
  have hdigit : ∀ m < 16, ∀ n < 16, hexDigit m = hexDigit n → m = n := by decide
  intro xs ys h
  rw [hex, hex, String.ofList_inj] at h
  induction xs generalizing ys with
  | nil =>
    cases ys with
    | nil => rfl
    | cons y ys => cases h
  | cons x xs ih =>
    cases ys with
    | nil => cases h
    | cons y ys =>
      rw [List.flatMap_cons, List.flatMap_cons] at h
      obtain ⟨hhead, htail⟩ := List.append_inj h rfl
      obtain ⟨hhigh, hlow⟩ := List.cons.inj hhead
      have hx : x.toNat < 256 := x.toNat_lt
      have hy : y.toNat < 256 := y.toNat_lt
      have hhigh := hdigit _ (by omega) _ (by omega) hhigh
      have hlow := hdigit _ (by omega) _ (by omega) (List.cons.inj hlow).1
      rw [ih htail, UInt8.toNat_inj.1 (show x.toNat = y.toNat by omega)]

end TypedScript.Digest

namespace TypedScript.Text

theorem decode?_bytesOf (cs : List Char) : decode? (bytesOf cs) = some cs := by
  induction cs with
  | nil => rw [bytesOf_nil, decode?]
  | cons c cs ih =>
    have hdecode := decodeHead_encoded c (bytesOf cs)
    obtain ⟨b, bs, hb⟩ := List.exists_cons_of_ne_nil (String.utf8EncodeChar_ne_nil (c := c))
    rw [hb, List.cons_append] at hdecode
    rw [bytesOf_cons, hb, List.cons_append, decode?, hdecode]
    simp [ih]

/-- Texts with the same bytes are the same. -/
theorem encode_injective : Function.Injective encode := by
  intro a b h
  rw [encode_eq, encode_eq] at h
  have hdecode := congrArg decode? h
  rw [decode?_bytesOf, decode?_bytesOf, Option.some.injEq, String.toList_inj] at hdecode
  exact hdecode

end TypedScript.Text

namespace TypedScript.Build

open TypedScript.Files

/-- What was written can be read. -/
def Codec.Inverts (codec : Codec) : Prop := ∀ p, codec.decode? (codec.encode p) = some p

theorem Payload.ir_ofUnit (u : Compile.Unit) : (Payload.ofUnit u).ir = u.ir := by
  unfold ofUnit
  cases u.lowered <;> rfl

namespace Codec

end Codec
/-! ### Keys -/

/-- The settings as one text. -/
def settingsText (settings : List String) : List UInt8 := Text.encode ("\x00".intercalate settings)

/-- What is digested for a key. -/
def keyed (source : List UInt8) (settings : List String) : List (List UInt8) :=
  [source, settingsText settings, Digest.sha256 source ++ Digest.sha256 (settingsText settings)]

theorem Cache.key_eq (source : List UInt8) (settings : List String) :
    Cache.key source settings = Digest.sha256 (Digest.sha256 source ++ Digest.sha256 (settingsText settings)) := by
  rw [Cache.key, Digest.combine]
  simp [settingsText]

/-- Without collisions a key tells of the source and the settings. -/
theorem Cache.key_inj {messages : Set (List UInt8)} (hinj : Set.InjOn Digest.sha256 messages)
    {source source' : List UInt8} {settings settings' : List String} (h : ∀ x ∈ keyed source settings, x ∈ messages)
    (h' : ∀ x ∈ keyed source' settings', x ∈ messages)
    (heq : Cache.key source settings = Cache.key source' settings') :
    source = source' ∧ settingsText settings = settingsText settings' := by
  rw [Cache.key_eq, Cache.key_eq] at heq
  simp only [keyed, List.forall_mem_cons] at h h'
  have hdigests := hinj h.2.2.1 h'.2.2.1 heq
  obtain ⟨hsource, hsettings⟩ := List.append_inj hdigests (by rw [Digest.length_sha256, Digest.length_sha256])
  exact ⟨hinj h.1 h'.1 hsource, hinj h.2.1 h'.2.1 hsettings⟩

/-- The name of a symbol has no zero byte in it. -/
theorem nul_notMem_of_isSymbol {s : String} (h : Project.isSymbol s = true) : '\x00' ∉ s.toList := by
  have hsign : (decide ('\x00' = '_') || decide ('\x00' = '$') || decide ('\x00' = '.') || Text.isLetter '\x00') =
    false := by
    decide +kernel
  have hdigit : Text.isDecimalDigit '\x00' = false := by decide +kernel
  unfold Project.isSymbol at h
  cases hs : s.toList with
  | nil => exact List.not_mem_nil
  | cons c rest =>
    rw [hs] at h
    dsimp only at h
    obtain ⟨hc, hrest⟩ := Bool.and_eq_true_iff.1 h
    intro hmem
    rcases List.mem_cons.1 hmem with rfl | hmem
    · cases hsign.symm.trans hc
    · have hnul := List.all_eq_true.1 hrest _ hmem
      rw [hsign, hdigit] at hnul
      cases hnul

/-- Settings that are right can be told from the text of them all. -/
theorem settings_inj {r r' : Request} {c c' : Project.Config} (h : r.config.validate = .ok c)
    (h' : r'.config.validate = .ok c') (heq : settingsText r.settings = settingsText r'.settings) : r.settings =
    r'.settings := by
  have htext (r : Request) : ("\x00".intercalate r.settings).toList = ((r.config.triple.toList ++ '\x00' ::
      r.config.entry.toList) ++ '\x00' :: r.config.allocate.toList) ++ '\x00' :: r.config.release.toList := by
    simp [Request.settings, String.intercalate_cons_cons, String.toList_append]
  have hsymbol {r : Request} {c : Project.Config} (h : r.config.validate = .ok c) :
      '\x00' ∉ r.config.entry.toList ∧ '\x00' ∉ r.config.allocate.toList ∧ '\x00' ∉ r.config.release.toList := by
    have hsymbols := (Compile.names_of_validate h).1
    exact ⟨nul_notMem_of_isSymbol (hsymbols _ (by simp)), nul_notMem_of_isSymbol (hsymbols _ (by simp)),
      nul_notMem_of_isSymbol (hsymbols _ (by simp))⟩
  obtain ⟨hentry, hallocate, hrelease⟩ := hsymbol h
  obtain ⟨hentry', hallocate', hrelease'⟩ := hsymbol h'
  have hlists := congrArg String.toList (Text.encode_injective heq)
  rw [htext r, htext r'] at hlists
  obtain ⟨hlists, hrelease⟩ := Text.append_cons_inj_last hrelease hrelease' hlists
  obtain ⟨hlists, hallocate⟩ := Text.append_cons_inj_last hallocate hallocate' hlists
  obtain ⟨htriple, hentry⟩ := Text.append_cons_inj_last hentry hentry' hlists
  rw [Request.settings, Request.settings, String.toList_inj.1 htriple, String.toList_inj.1 hentry,
    String.toList_inj.1 hallocate, String.toList_inj.1 hrelease]

/-! ### Places -/

theorem place_pathOf_inj {c : Cache} {key key' : List UInt8} {t : Tree}
    (h : t.place (c.pathOf key) = t.place (c.pathOf key')) : key = key' := by
  obtain ⟨p, hp⟩ := place_pathOf c key t
  obtain ⟨p', hp'⟩ := place_pathOf c key' t
  rw [hp, hp'] at h
  have hname := List.singleton_inj.1 (List.append_inj' h rfl).2
  rw [← String.toList_inj, String.toList_append, String.toList_append, List.append_cancel_right_eq,
    String.toList_inj] at hname
  exact Digest.hex_injective hname

end TypedScript.Build

/-! ## Builds -/

namespace TypedScript.Build

open TypedScript.Files

/-! ### Modules of files -/

namespace Request

/-- What a request makes of a file that is compiled on its own: the file has no errors, and its module has the
text. -/
def Yields (r : Request) (file : String) (source : List UInt8) (ir : String) : Prop :=
  ∃ u, Compile.compile r.options (sourceFile file source).1 (sourceFile file source).2 = .ok u ∧
    u.failed = false ∧ u.ir = ir

/-- The settings of the request are right, and more than one diagnostic is kept: if it is one, the parser's first
error goes unnoticed, and a file with errors is compiled. -/
structure Usable (r : Request) : Prop where
  config : ∃ c, r.config.validate = .ok c
  limit : r.options.diagnosticLimit ≠ 1

variable {r : Request} {file : String} {source : List UInt8} {ir : String}

theorem yields_iff (hr : r.Usable) : r.Yields file source ir ↔
    Compile.Emits r.options.hooks r.options.triple (sourceFile file source).2 ir :=
  Compile.compile_emits_iff rfl rfl rfl hr.limit _

end Request

/-- The line that names a file in its module. -/
def header (file : String) : String := Llvm.sourceLine (Path.clean file)

theorem Request.Yields.renamed {r r' : Request} {file : String} {source : List UInt8} {ir : String}
    (h : r.Yields file source ir) (hr : r.Usable) (hr' : r'.Usable) (hsettings : r'.settings = r.settings)
    (file' : String) :
    ∃ rest, ir = header file ++ rest ∧ r'.Yields file' source (header file' ++ rest) := by
  rw [Request.yields_iff hr] at h
  have hpath (file : String) : (sourceFile file source).2.path ≠ "" := Path.clean_ne_empty file
  obtain ⟨rest, hir, hothers⟩ := h.renamed (hpath file)
  refine ⟨rest, hir, ?_⟩
  rw [Request.yields_iff hr']
  have hoptions : r'.options.hooks = r.options.hooks ∧ r'.options.triple = r.options.triple := by
    simp only [Request.settings, List.cons.injEq] at hsettings
    obtain ⟨htriple, hentry, hallocate, hrelease, -⟩ := hsettings
    simp only [Request.options, htriple, hentry, hallocate, hrelease, and_self]
  rw [hoptions.1, hoptions.2]
  exact hothers (sourceFile file' source).2 rfl rfl (hpath file')

/-! ### Entries that can be trusted -/

section

variable (messages : Set (List UInt8))

/-- The module was made of a file by a request that the key belongs to. -/
def Honest (key : List UInt8) (ir : String) : Prop :=
  ∃ (r : Request) (file : String) (source : List UInt8), r.Usable ∧ (∀ x ∈ keyed source r.settings, x ∈ messages) ∧
    key = Cache.key source r.settings ∧ r.Yields file source ir

/-- All entries that this compiler takes are modules of files that their keys belong to. -/
def Sound (codec : Codec) (c : Cache) (t : Tree) : Prop :=
  ∀ key bytes p, t.get? (t.place (c.pathOf key)) = some (.file bytes) → codec.decode? bytes = some p →
    p.schema = Payload.currentSchema → p.compiler = c.compiler → Honest messages key p.ir

end

variable {messages : Set (List UInt8)} {codec : Codec} {c : Cache} {t t' : Tree}

/-- What an entry holds for a source is the module that any file with the source has, but for the name in it. -/
theorem Honest.renamed {r : Request} {source : List UInt8} {ir : String}
    (h : Honest messages (Cache.key source r.settings) ir) (hinj : Set.InjOn Digest.sha256 messages) (hr : r.Usable)
    (hhashed : ∀ x ∈ keyed source r.settings, x ∈ messages) (file : String) : ∃ file' rest, r.Yields file source
    (header file ++ rest) ∧ ir = header file' ++ rest := by
  obtain ⟨r', file', source', hr', hhashed', hkey, hyields⟩ := h
  obtain ⟨rfl, htext⟩ := Cache.key_inj hinj hhashed hhashed' hkey
  obtain ⟨_, hconfig⟩ := hr.config
  obtain ⟨_, hconfig'⟩ := hr'.config
  obtain ⟨rest, hir, howns⟩ := hyields.renamed hr' hr (settings_inj hconfig hconfig' htext) file
  exact ⟨file', rest, howns, hir⟩

/-- Entries that are not written to stay sound. -/
theorem Sound.keeps {written : Place → Prop} (h : Sound messages codec c t) (hkeeps : Tree.Keeps written t t')
    (hfree : ∀ key, ¬ written (t.place (c.pathOf key))) : Sound messages codec c t' := by
  intro key bytes p hget
  rw [hkeeps.place_eq, hkeeps.file _ (hfree key)] at hget
  exact h key bytes p hget

/-- The file is written to the place that the path leads to, and no other. -/
def Stores (path : String) (bytes : List UInt8) (t t' : Tree) : Prop :=
  Tree.Keeps (· = t.place path) t t' ∧ t'.get? (t.place path) = some (.file bytes)

theorem stores_of_write {path : String} {bytes : List UInt8} (h : t.write path bytes = .ok t') :
    Stores path bytes t t' := by
  have hwrites := Tree.keeps_write h
  obtain ⟨-, hdirectory, -, rfl⟩ := Tree.write_eq_ok h
  exact ⟨hwrites, Tree.get?_put _ hdirectory _⟩

/-- An entry may be added. -/
theorem Sound.put {key : List UInt8} {p : Payload} (h : Sound messages codec c t) (hcodec : codec.Inverts)
    (hstores : Stores (c.pathOf key) (codec.encode (c.sign p)) t t') (hir : Honest messages key p.ir) :
    Sound messages codec c t' := by
  obtain ⟨hkeeps, hget⟩ := hstores
  intro key' bytes p' hget' hdecode hschema hcompiler
  rw [hkeeps.place_eq] at hget'
  by_cases hkey : t.place (c.pathOf key') = t.place (c.pathOf key)
  · obtain rfl := place_pathOf_inj hkey
    rw [hget] at hget'
    obtain rfl := Node.file.inj (Option.some.inj hget')
    rw [hcodec] at hdecode
    obtain rfl := Option.some.inj hdecode
    exact hir
  · rw [hkeeps.file _ hkey] at hget'
    exact h key' bytes p' hget' hdecode hschema hcompiler

/-! ### A build -/

namespace Request

variable (r : Request) (t : Tree)

/-- The unit of a file at the start of a build on the tree. -/
abbrev unitOn (file : String) : Product := r.product (Tree.pathOf t.workDir) file

/-- What may be written for a file: the module that the file has on its own, but for the name in it if the module
was found. -/
def Brings (file : String) (isCached : Bool) (ir : String) : Prop :=
  ∃ source own, t.get? (t.place file) = some (.file source) ∧ r.Yields file source own ∧
    (ir = own ∨ isCached = true ∧ ∃ file' rest, own = header file ++ rest ∧ ir = header file' ++ rest)

/-- Where the module of a unit goes there is the module of a file whose module goes there. -/
def Holds (s : Tree) (output : String) : Prop :=
  ∃ file ∈ r.files, ∃ isCached ir, t.place (r.unitOn t file).output = t.place output ∧ r.Brings t file isCached ir ∧
    s.get? (t.place output) = some (.file (Text.encode ir))

/-- Where there is a module there will be one. -/
def Stays (s s' : Tree) : Prop := ∀ output, r.Holds t s output → r.Holds t s' output

/-- What is known of a unit that was brought to its end: one that was found or written has a module on its own,
and one that was written has its module in its place. -/
def Delivers (p p' : Product) (s : Tree) : Prop :=
  (p'.isCached = true ∨ p'.failed = false → ∃ ir, r.Brings t p.path p'.isCached ir) ∧
    (p'.failed = false → r.Holds t s p.output)

/-- What is known of a unit whose work is over, unless its compilation has a fault. -/
def Settles (p : Product) (result : Except Ir.Fault Product) (s : Tree) : Prop := ∀ p', result = .ok p' →
    r.Delivers t p p' s

/-- The request uses the cache, and what is built and kept does not lie where its files are. -/
structure Fair (messages : Set (List UInt8)) (codec : Codec) (c : Cache) (r : Request) (t : Tree) : Prop
    extends r.Usable where
  cache : r.cache = some c
  codec : r.codec = codec
  apart : ∀ f ∈ r.files, ∀ g ∈ r.files, ∀ path, r.Writes (Tree.pathOf t.workDir) g path → t.place f ≠ t.place path
  hashed : ∀ f ∈ r.files, ∀ source, t.get? (t.place f) = some (.file source) → ∀ x ∈ keyed source r.settings,
    x ∈ messages

/-- The places that are written to. -/
def IsWritten (p : Place) : Prop := ∃ f ∈ r.files, ∃ path, r.Writes (Tree.pathOf t.workDir) f path ∧
    p = t.place path

/-- What holds all the time during a build. -/
structure Going (messages : Set (List UInt8)) (codec : Codec) (c : Cache) (s : Tree) : Prop where
  keeps : Tree.Keeps (r.IsWritten t) t s
  sound : Sound messages codec c s

end Request

section

variable {r : Request} {s s' : Tree} {file : String} {isCached : Bool} {ir : String} {key : List UInt8}
    {p p' : Product}

open Request

instance reflStays : Std.Refl (r.Stays t) := ⟨fun _ _ => id⟩

instance isTransStays : IsTrans Tree (r.Stays t) := ⟨fun _ _ _ h h' output hholds => h' output (h output hholds)⟩

/-- A file of the request has the content that it had at the start. -/
theorem Request.Going.read (h : r.Going t messages codec c s) (hr : r.Fair messages codec c t)
    (hfile : file ∈ r.files) {source : List UInt8} (hread : s.read file = .ok source) : t.get? (t.place file) = some
    (.file source) := by
  have hget := (Tree.read_eq_ok hread).2
  rw [h.keeps.place_eq] at hget
  exact (h.keeps.file _ (fun ⟨g, hg, path, hpath, heq⟩ => hr.apart file hfile g hg path hpath heq) source).1 hget

theorem Request.Settles.stays {result : Except Ir.Fault Product} (h : r.Settles t p result s)
    (hstays : r.Stays t s s') :
    r.Settles t p result s' := fun p' hp' => ⟨(h p' hp').1, fun hgood => hstays _ ((h p' hp').2 hgood)⟩

theorem Request.Delivers.settles (h : r.Delivers t p p' s) : r.Settles t p (.ok p') s := by
  intro p'' hp''
  exact Except.ok.inj hp'' ▸ h

/-- A unit that was compiled and has failed need not have brought anything. -/
theorem Request.Delivers.of_failed (hfailed : p'.failed = true) (hcached : p'.isCached = false) :
    r.Delivers t p p' s := by
  constructor
  · rintro (hc | hgood)
    · cases hcached.symm.trans hc
    · cases hfailed.symm.trans hgood
  · intro hgood
    cases hfailed.symm.trans hgood

theorem Request.Holds.keeps {written : Place → Prop} {output : String} (h : r.Holds t s output)
    (hkeeps : Tree.Keeps written s s') (hfree : ¬ written (t.place output)) : r.Holds t s' output := by
  obtain ⟨g, hg, b, ir, hplace, hir, hget⟩ := h
  exact ⟨g, hg, b, ir, hplace, hir, (hkeeps.file _ hfree _).2 hget⟩

/-! ### Steps of a build -/

/-- Nothing is written. -/
theorem Request.Going.idle (h : r.Going t messages codec c s) {q : Query} (hq : q.Within fun _ => False) :
    r.Going t messages codec c (q.run s).2 ∧ r.Stays t s (q.run s).2 := by
  have hkeeps : Tree.Keeps (fun _ => False) s (q.run s).2 :=
    (keeps_of_touches (moves_ask hq s)).mono fun p hp => hp.elim fun _ hpath => hpath.1
  exact ⟨⟨h.keeps.trans (hkeeps.mono fun _ => False.elim), h.sound.keeps hkeeps fun _ => id⟩,
    fun _ hp => hp.keeps hkeeps id⟩

/-- The module of a file is written. -/
theorem Request.Going.module (h : r.Going t messages codec c s) (hfile : file ∈ r.files)
    (hstores : Stores (r.unitOn t file).output (Text.encode ir) s s') (hir : r.Brings t file isCached ir) :
    r.Going t messages codec c s' ∧ r.Stays t s s' ∧ r.Holds t s' (r.unitOn t file).output := by
  obtain ⟨hkeeps, hget⟩ := hstores
  rw [h.keeps.place_eq] at hkeeps hget
  have hholds : r.Holds t s' (r.unitOn t file).output := ⟨file, hfile, isCached, ir, rfl, hir, hget⟩
  refine ⟨⟨h.keeps.trans (hkeeps.mono fun p hp => ⟨file, hfile, _, .inl rfl, hp⟩), ?_⟩, ?_, hholds⟩
  · refine h.sound.keeps hkeeps fun key heq => ?_
    rw [h.keeps.place_eq] at heq
    exact place_output_ne r _ file c key t heq.symm
  · intro output hp
    by_cases houtput : t.place output = t.place (r.unitOn t file).output
    · exact ⟨file, hfile, isCached, ir, houtput.symm, hir, houtput ▸ hget⟩
    · exact hp.keeps hkeeps houtput

/-- An entry is written. -/
theorem Request.Going.entry (h : r.Going t messages codec c s) (hr : r.Fair messages codec c t)
    (hcodec : codec.Inverts) (hfile : file ∈ r.files) {payload : Payload}
    (hstores : Stores (c.pathOf key) (codec.encode (c.sign payload)) s s') (hir : Honest messages key payload.ir) :
    r.Going t messages codec c s' ∧ r.Stays t s s' := by
  refine ⟨⟨?_, h.sound.put hcodec hstores hir⟩, fun output hp => ?_⟩
  · refine h.keeps.trans (hstores.1.mono fun p hp => ⟨file, hfile, c.pathOf key, .inr ⟨c, hr.cache, key, rfl⟩, ?_⟩)
    rw [hp, h.keeps.place_eq]
  · obtain ⟨g, hg, b, ir', hplace, hrest⟩ := hp
    refine Holds.keeps ⟨g, hg, b, ir', hplace, hrest⟩ hstores.1 ?_
    rw [← hplace, h.keeps.place_eq]
    exact place_output_ne r _ g c key t

/-! ### Reading and writing while others do so -/

section

variable {I : Tree → Prop} {K : Tree → Tree → Prop} {path : String} {bytes : List UInt8}

theorem secures_read [Std.Refl K] {Q : Except Cause (List UInt8) → Tree → Prop}
    (hQ : ∀ s', I s' → Q (s'.read path) s') :
    (Disk.read (m := Work) path).Secures I K Q s := fun s' _ hI => ⟨hI, refl_of K s', hQ s' hI⟩

/-- A file is read. -/
theorem secures_readFile [Std.Refl K] {Q : Except Failure (List UInt8) → Tree → Prop}
    (hQ : ∀ s' result, I s' → (∀ bytes, result = .ok bytes → s'.read path = .ok bytes) → Q result s') :
    (readFile (m := Work) path).run.Secures I K Q s := by
  unfold readFile
  rw [Work.secures_liftM_bind]
  refine secures_read fun s' hI => ?_
  cases hread : s'.read path with
  | ok source => exact hQ s' _ hI fun bytes hbytes => by rw [hread, ← Except.ok.inj hbytes]
  | error cause => cases cause <;> exact hQ s' _ hI fun bytes hbytes => by cases hbytes

/-- Something is written, or the disk is left as it is. -/
theorem secures_write [Std.Refl K] {H : Tree → Prop} {Q : Except Cause PUnit → Tree → Prop}
    (hwrite : ∀ s s', I s → Stores path bytes s s' → I s' ∧ K s s' ∧ H s')
    (hQ : ∀ s' result, (∀ u, result = .ok u → H s') → Q result s') :
    (Disk.write (m := Work) path bytes).Secures I K Q s := by
  intro s' _ hI
  change I (changeTree (·.write path bytes) s').2 ∧ K s' (changeTree (·.write path bytes) s').2 ∧
    Q (changeTree (·.write path bytes) s').1 (changeTree (·.write path bytes) s').2
  simp only [changeTree]
  cases hresult : s'.write path bytes with
  | error cause => exact ⟨hI, refl_of K s', hQ s' _ fun _ h => by cases h⟩
  | ok s'' =>
    obtain ⟨hI', hK, hH⟩ := hwrite s' s'' hI (stores_of_write hresult)
    exact ⟨hI', hK, hQ s'' _ fun _ _ => hH⟩

end

/-- A unit of the request to which nothing has happened. -/
structure Request.Starts (r : Request) (t : Tree) (p : Product) : Prop where
  file : p.path ∈ r.files
  output : p.output = (r.unitOn t p.path).output
  isCached : p.isCached = false
  error : p.error = none

theorem Request.starts_unitOn (hfile : file ∈ r.files) : r.Starts t (r.unitOn t file) := ⟨hfile, rfl, rfl, rfl⟩

/-- The module of a file is written. -/
theorem secures_writeModule (hp : r.Starts t p) (hir : r.Brings t p.path isCached ir)
    {Q : Except String PUnit → Tree → Prop}
    (hQ : ∀ s' result, (∀ u, result = .ok u → r.Holds t s' p.output) → Q result s') :
    (writeModule p.output ir).run.Secures (r.Going t messages codec c) (r.Stays t) Q s := by
  have hmodule (s s' : Tree) (hs : r.Going t messages codec c s) (hstores : Stores p.output (Text.encode ir) s s') :
      r.Going t messages codec c s' ∧ r.Stays t s s' ∧ r.Holds t s' p.output := by
    rw [hp.output] at hstores ⊢
    exact hs.module hp.file hstores hir
  have hdirs := Work.asks_makeDirs (P := Query.Within fun _ => False) (T := fun _ => True) (fun _ => trivial)
    (fun _ => trivial) (Path.dir p.output)
  unfold writeModule
  rw [ExceptT.run_bind, Work.secures_bind, Work.secures_adapt]
  refine hdirs.secures (fun q hq s hs => hs.idle hq) (refl_of (r.Stays t) s) fun result s' _ => ?_
  cases result with
  | error f => exact hQ s' _ fun _ h => by cases h
  | ok _ =>
    change Work.Secures _ _ _ ((writeFile (m := Work) p.output (Text.encode ir)).adapt _).run s'
    rw [Work.secures_adapt]
    unfold writeFile
    rw [Work.secures_liftM_bind]
    refine secures_write hmodule fun s' result hresult => ?_
    cases result with
    | error cause => exact hQ s' _ fun _ h => by cases h
    | ok u => exact hQ s' _ fun _ _ => hresult u rfl

/-- An entry is written if all goes well. What is known of the unit stays so. -/
theorem secures_put (hr : r.Fair messages codec c t) (hcodec : codec.Inverts) (hfile : file ∈ r.files)
    {payload : Payload} (hir : Honest messages key payload.ir) {Q : PUnit → Tree → Prop}
    (hQ : ∀ u s', r.Stays t s s' → Q u s') :
    (c.put (m := Work) codec key payload).Secures (r.Going t messages codec c) (r.Stays t) Q s := by
  have hput : (c.put (m := Work) codec key payload).Asks
      (fun q => q.Within (fun _ => False) ∨ q = .write (c.pathOf key) (codec.encode (c.sign payload)))
      (fun _ => True) :=
    Work.asks_put (fun _ => .inl trivial) (fun _ => .inl trivial) (.inr rfl)
  refine hput.secures (fun q hq s hs => ?_) (refl_of (r.Stays t) s) hQ
  rcases hq with hq | rfl
  · exact hs.idle hq
  · change r.Going t messages codec c (changeTree (·.write (c.pathOf key) (codec.encode (c.sign payload))) s).2 ∧
      r.Stays t s (changeTree (·.write (c.pathOf key) (codec.encode (c.sign payload))) s).2
    unfold changeTree
    split
    · exact hs.entry hr hcodec hfile (stores_of_write ‹_›) hir
    · exact ⟨hs, refl_of (r.Stays t) s⟩

/-! ### The work of a unit -/

/-- What is known of a unit that was looked at. -/
def Request.Looked (r : Request) (t : Tree) (messages : Set (List UInt8)) (p : Product) : Prepared → Prop
  | .unreadable p' => p'.failed = true ∧ p'.isCached = false
  | .kept p' ir => p' = p ∧ ∃ source, t.get? (t.place p.path) = some (.file source) ∧
      Honest messages (Cache.key source r.settings) ir
  | .fresh p' key =>
    p' = p ∧ ∃ source, t.get? (t.place p.path) = some (.file source) ∧ key = Cache.key source r.settings

/-- What is found in the cache can be trusted. -/
theorem secures_get? (hcodec : r.codec = codec) {Q : Option Payload → Tree → Prop}
    (hQ : ∀ s' kept, (∀ p, kept = some p → Honest messages key p.ir) → Q kept s') :
    (c.get? (m := Work) r.codec key).Secures (r.Going t messages codec c) (r.Stays t) Q s := by
  unfold Cache.get?
  rw [Work.secures_bind]
  refine secures_read fun s' hs => ?_
  have hnothing : Q none s' := hQ s' none fun p hp => by cases hp
  cases hread : s'.read (c.pathOf key) with
  | error cause => exact hnothing
  | ok bytes =>
    dsimp only
    rw [hcodec]
    cases hdecode : codec.decode? bytes with
    | none => exact hnothing
    | some p =>
      refine hQ s' (if p.schema = Payload.currentSchema ∧ p.compiler = c.compiler then some p else none)
        fun p' hp' => ?_
      split at hp'
      · obtain rfl := Option.some.inj hp'
        exact hs.sound key bytes p (Tree.read_eq_ok hread).2 hdecode (And.left ‹_›) (And.right ‹_›)
      · cases hp'

theorem secures_prepare (hr : r.Fair messages codec c t) (hp : r.Starts t p) :
    (prepare r p).Secures (r.Going t messages codec c) (r.Stays t) (fun q _ => r.Looked t messages p q) s := by
  unfold prepare
  rw [Work.secures_bind]
  refine secures_readFile fun s' result hs hresult => ?_
  cases result with
  | error f => exact ⟨by simp [Product.failed], hp.isCached⟩
  | ok source =>
    have hsource := hs.read hr hp.file (hresult source rfl)
    dsimp only
    rw [hr.cache]
    dsimp only
    rw [Work.secures_bind]
    refine secures_get? hr.codec fun s'' kept hkept => ?_
    cases kept with
    | none => exact ⟨rfl, source, hsource, rfl⟩
    | some e => exact ⟨rfl, source, hsource, hkept e rfl⟩

/-- What a unit that was found brings is what its file would bring on its own, but for the name. -/
theorem brings_of_honest {source : List UInt8} (hinj : Set.InjOn Digest.sha256 messages)
    (hr : r.Fair messages codec c t) (hfile : file ∈ r.files)
    (hsource : t.get? (t.place file) = some (.file source))
    (hir : Honest messages (Cache.key source r.settings) ir) : r.Brings t file true ir := by
  obtain ⟨file', rest, hyields, rfl⟩ := hir.renamed hinj hr.toUsable (hr.hashed file hfile source hsource) file
  exact ⟨source, _, hsource, hyields, .inr ⟨rfl, file', rest, rfl, rfl⟩⟩

theorem secures_fail {I : Tree → Prop} {K : Tree → Tree → Prop} {Q : Except Ir.Fault Product → Tree → Prop}
    (stage message : String) (hQ : Q (.ok { p with error := some message }) s) :
    (liftM (p.fail stage message) : ExceptT Ir.Fault Work Product).run.Secures I K Q s := hQ

/-- A unit that was found is written under its file. -/
theorem secures_kept (hinj : Set.InjOn Digest.sha256 messages) (hr : r.Fair messages codec c t) (hp : r.Starts t p)
    {source : List UInt8} (hsource : t.get? (t.place p.path) = some (.file source))
    (hir : Honest messages (Cache.key source r.settings) ir) :
    (finish r (.kept p ir)).run.Secures (r.Going t messages codec c) (r.Stays t) (r.Settles t p) s := by
  have hbrings := brings_of_honest hinj hr hp.file hsource hir
  unfold finish
  dsimp only
  rw [Work.secures_liftM_bind]
  refine secures_writeModule hp hbrings fun s' result hresult => ?_
  cases result with
  | error message =>
    refine secures_fail _ _ (Delivers.settles ⟨fun _ => ⟨ir, hbrings⟩, fun hgood => ?_⟩)
    simp [Product.failed] at hgood
  | ok u => exact Delivers.settles ⟨fun _ => ⟨ir, hbrings⟩, fun _ => hresult u rfl⟩

/-- A unit that was compiled is written, and kept under its key. -/
theorem secures_writeProduct (hcodec : codec.Inverts) (hr : r.Fair messages codec c t) (hp : r.Starts t p)
    {source : List UInt8} (hsource : t.get? (t.place p.path) = some (.file source)) {u : Compile.Unit}
    (hyields : r.Yields p.path source u.ir) :
    (writeProduct r (p.compiled u) (Cache.key source r.settings) u).run.Secures (r.Going t messages codec c)
      (r.Stays t) (r.Settles t p) s := by
  have hbrings : r.Brings t p.path false u.ir := ⟨source, u.ir, hsource, hyields, .inl rfl⟩
  have hhonest : Honest messages (Cache.key source r.settings) (Payload.ofUnit u).ir := by
    rw [Payload.ir_ofUnit]
    exact ⟨r, p.path, source, hr.toUsable, hr.hashed p.path hp.file source hsource, rfl, hyields⟩
  change Work.Secures _ _ _ (ExceptT.run (liftM (writeModule p.output u.ir).run >>= _)) s
  rw [Work.secures_liftM_bind]
  refine secures_writeModule hp hbrings fun s₁ result hresult => ?_
  cases result with
  | error message =>
    refine secures_fail _ _ (Delivers.settles (.of_failed ?_ hp.isCached))
    simp [Product.failed]
  | ok _ =>
    have hdelivers : r.Delivers t p ((p.compiled u).time "write") s₁ :=
      ⟨fun _ => ⟨u.ir, (congrArg (r.Brings t p.path · u.ir) hp.isCached).mpr hbrings⟩, fun _ => hresult _ rfl⟩
    dsimp only
    rw [hr.cache]
    dsimp only
    rw [Work.secures_liftM_bind, hr.codec]
    exact secures_put hr hcodec hp.file hhonest fun _ s₂ hstays => hdelivers.settles.stays hstays

/-- A unit that was not found is compiled, written and kept. -/
theorem secures_fresh (hcodec : codec.Inverts) (hr : r.Fair messages codec c t) (hp : r.Starts t p)
    {source : List UInt8} (hsource : t.get? (t.place p.path) = some (.file source)) :
    (finish r (.fresh p (Cache.key source r.settings))).run.Secures (r.Going t messages codec c) (r.Stays t)
      (r.Settles t p) s := by
  unfold finish
  dsimp only
  rw [Work.secures_liftM_bind]
  refine secures_readFile fun s' result hs hresult => ?_
  cases result with
  | error f =>
    refine secures_fail _ _ (Delivers.settles (.of_failed ?_ hp.isCached))
    simp [Product.failed]
  | ok source' =>
    obtain rfl : source = source' := by
      have hsource' := hs.read hr hp.file (hresult source' rfl)
      exact Node.file.inj (Option.some.inj (hsource.symm.trans hsource'))
    obtain ⟨es, hrun, -⟩ := compileProduct_eq r p source
    dsimp only
    rw [ExceptT.run_bind, hrun, Work.telling_bind, Work.secures_telling]
    cases hcompile : Compile.compile r.options (sourceFile p.path source).1 (sourceFile p.path source).2 with
    | error f =>
      rintro p' h
      cases h
    | ok u =>
      have hfailed : (p.compiled u).failed = u.failed := by simp [Product.failed, Product.compiled, hp.error]
      change Work.Secures _ _ _ (ExceptT.run (if (p.compiled u).failed = true then _ else _)) s'
      rw [hfailed]
      split
      · exact Delivers.settles (.of_failed (hfailed.trans ‹_›) hp.isCached)
      exact secures_writeProduct hcodec hr hp hsource ⟨u, hcompile, Bool.eq_false_iff.2 ‹_›, rfl⟩

theorem secures_work (hinj : Set.InjOn Digest.sha256 messages) (hcodec : codec.Inverts)
    (hr : r.Fair messages codec c t) (hp : r.Starts t p) : (r.work p).Secures (r.Going t messages codec c)
    (r.Stays t) (r.Settles t p) s := by
  rw [Request.work, Work.secures_bind]
  refine (secures_prepare hr hp).imp fun q s' hq => ?_
  cases q with
  | unreadable p' => exact Delivers.settles (.of_failed hq.1 hq.2)
  | kept p' ir =>
    obtain ⟨rfl, source, hsource, hir⟩ := hq
    exact secures_kept hinj hr hp hsource hir
  | fresh p' key =>
    obtain ⟨rfl, source, hsource, rfl⟩ := hq
    exact secures_fresh hcodec hr hp hsource

/-! ### Builds, one after another -/

/-- A build that goes on trusts the entries and leaves only entries that can be trusted; and its units settle as
they should. -/
theorem settles_of_reaches (hinj : Set.InjOn Digest.sha256 messages) (hcodec : codec.Inverts)
    (ht : Sound messages codec c t) (hr : r.Fair messages codec c t) {g : Session Tree}
    (hg : r.Reaches (Tree.pathOf t.workDir) t g) :
    r.Going t messages codec c g.disk ∧ Session.Each (fun p w => w.Secures (r.Going t messages codec c) (r.Stays t)
      (r.Settles t p) g.disk) (r.files.map (r.product (Tree.pathOf t.workDir))) g.works := by
  refine Session.secures_of_steps (fun s s' hstays p result h => h.stays hstays) hg ⟨.refl _ t, ht⟩ ?_
  refine Session.each_map fun p hp => ?_
  obtain ⟨file, hfile, rfl⟩ := List.mem_map.1 hp
  exact secures_work hinj hcodec hr (starts_unitOn hfile)

end

/-- A disk on which builds have used a cache that was empty at first. A build may have been given up before its
end. Between builds anything may be done to the disk, as long as nothing else writes entries. -/
inductive Reached (messages : Set (List UInt8)) (codec : Codec) (c : Cache) : Tree → Prop
  | empty {t : Tree} (h : ∀ key bytes, t.get? (t.place (c.pathOf key)) ≠ some (.file bytes)) :
      Reached messages codec c t
  | edit {t t' : Tree} (h : Reached messages codec c t) (hentries : ∀ key bytes,
      t'.get? (t'.place (c.pathOf key)) = some (.file bytes) → t.get? (t.place (c.pathOf key)) =
        some (.file bytes)) :
      Reached messages codec c t'
  | build {t : Tree} {r : Request} {g : Session Tree} (h : Reached messages codec c t)
      (hr : r.Fair messages codec c t) (hg : r.Reaches (Tree.pathOf t.workDir) t g) :
        Reached messages codec c g.disk

/-- Entries can be trusted on every disk that is reached. -/
theorem Reached.sound (h : Reached messages codec c t) (hinj : Set.InjOn Digest.sha256 messages)
    (hcodec : codec.Inverts) :
    Sound messages codec c t := by
  induction h with
  | empty h => exact fun key bytes _ hget => absurd hget (h key bytes)
  | edit _ hentries ih => exact fun key bytes p hget => ih key bytes p (hentries key bytes hget)
  | build _ hr hg ih => exact (settles_of_reaches hinj hcodec ih hr hg).1.sound

end TypedScript.Build
