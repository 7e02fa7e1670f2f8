import TypedScript.Text.Path

/-!
# Paths and names

What a path names is said by the names that it passes once dots are taken out of it. A cleaned path is made of
just these names, so of two paths that both start at the root, or both do not, each is known by its names.

* `names`: the names that a path passes.
* `names_join`: the names of a path below another one.
* `relative_of_names`: how a path is found from one above it.
-/

namespace TypedScript.Path

/-! ### Parts of a text -/

theorem split_append_sep (sep : Char) (xs ys : List Char) :
    split sep (String.ofList (xs ++ sep :: ys)) = split sep (String.ofList xs) ++ split sep (String.ofList ys) := by
  simp only [split, String.toList_ofList, List.splitOn_append_cons_self, List.map_append]

theorem split_of_notMem {sep : Char} {s : String} (h : sep ∉ s.toList) : split sep s = [s] := by
  rw [split, List.splitOn_eq_singleton h, List.map_singleton, String.ofList_toList]

theorem notMem_of_mem_splitOn {sep : Char} {cs part : List Char} (h : part ∈ cs.splitOn sep) : sep ∉ part := by
  induction cs generalizing part with
  | nil =>
    obtain rfl : part = [] := by simpa using h
    exact List.not_mem_nil
  | cons c cs ih =>
    rw [List.splitOn_cons_eq_if_modifyHead] at h
    split at h
    · rcases List.mem_cons.1 h with rfl | h
      · exact List.not_mem_nil
      · exact ih h
    · rename_i hc
      cases hparts : cs.splitOn sep with
      | nil => exact absurd hparts (List.splitOn_ne_nil sep cs)
      | cons first rest =>
        rw [hparts, List.modifyHead_cons] at h
        rw [hparts] at ih
        rcases List.mem_cons.1 h with rfl | h
        · have hsep : sep ≠ c := fun heq => hc (by rw [heq, beq_self_eq_true])
          exact fun hmem => (List.mem_cons.1 hmem).elim hsep (ih List.mem_cons_self)
        · exact ih (List.mem_cons_of_mem _ h)

/-- A part of a path: it is not empty and has no slash in it. -/
structure IsPart (s : String) : Prop where
  ne_empty : s ≠ ""
  slash_notMem : '/' ∉ s.toList

/-- A part that is the name of something. -/
structure IsName (s : String) : Prop extends IsPart s where
  ne_dot : s ≠ "."
  ne_dots : s ≠ ".."

theorem isPart_of_mem_components {path s : String} (h : s ∈ components path) : IsPart s := by
  obtain ⟨hmem, hne⟩ := List.mem_filter.1 h
  obtain ⟨part, hpart, rfl⟩ := List.mem_map.1 hmem
  exact ⟨of_decide_eq_true hne, by rw [String.toList_ofList]; exact notMem_of_mem_splitOn hpart⟩

@[simp]
theorem components_empty : components "" = [] := by decide

theorem components_append (a b : String) : components (a ++ "/" ++ b) = components a ++ components b := by
  have h := split_append_sep '/' a.toList b.toList
  have hpath : String.ofList (a.toList ++ '/' :: b.toList) = a ++ "/" ++ b := by
    rw [← String.toList_inj, String.toList_ofList, String.toList_append, String.toList_append, List.append_assoc]
    rfl
  rw [hpath, String.ofList_toList, String.ofList_toList] at h
  rw [components, h, List.filter_append, components, components]

/-- Parts that are put together are the parts of the whole. -/
theorem components_intercalate {parts : List String} (h : ∀ s ∈ parts, IsPart s) :
    components ("/".intercalate parts) = parts := by
  induction parts with
  | nil => rw [String.intercalate_nil, components_empty]
  | cons s rest ih =>
    rw [List.forall_mem_cons] at h
    have hs : components s = [s] := by
      simp [components, split_of_notMem h.1.slash_notMem, h.1.ne_empty]
    cases rest with
    | nil => rw [String.intercalate_singleton, hs]
    | cons s' rest =>
      rw [String.intercalate_cons_cons, components_append, hs, ih h.2]
      rfl

/-! ### Taking dots out -/

theorem reduceComponents_append (rooted : Bool) (kept xs ys : List String) :
    reduceComponents rooted kept (xs ++ ys) = reduceComponents rooted (reduceComponents rooted kept xs) ys := by
  fun_induction reduceComponents rooted kept xs <;> simp_all [reduceComponents]

/-- Names are kept as they are. -/
theorem reduceComponents_of_names {rooted : Bool} {kept ns : List String} (h : ∀ n ∈ ns, IsName n) :
    reduceComponents rooted kept ns = ns.reverse ++ kept := by
  induction ns generalizing kept with
  | nil => rfl
  | cons n ns ih =>
    rw [List.forall_mem_cons] at h
    rw [reduceComponents.eq_6 _ _ _ _ h.1.ne_dot h.1.ne_dots, ih h.2, List.reverse_cons, List.append_assoc]
    rfl

/-- What is left of components, last first: names, and before them the steps that lead out of the start. From the
root none lead out. -/
structure IsReduced (rooted : Bool) (kept : List String) : Prop where
  form : ∃ ns k, kept = ns ++ List.replicate k ".." ∧ (∀ n ∈ ns, IsName n) ∧ (rooted = true → k = 0)

namespace IsReduced

variable {rooted : Bool} {kept : List String}

theorem nil (rooted : Bool) : IsReduced rooted [] :=
  ⟨[], 0, rfl, fun _ h => absurd h List.not_mem_nil, fun _ => rfl⟩

theorem name {n : String} (h : IsReduced rooted kept) (hn : IsName n) : IsReduced rooted (n :: kept) := by
  obtain ⟨ns, k, rfl, hns, hk⟩ := h.form
  exact ⟨n :: ns, k, rfl, List.forall_mem_cons.2 ⟨hn, hns⟩, hk⟩

/-- A step out at the head has steps out only behind it. -/
theorem out {outer : List String} (h : IsReduced rooted (".." :: outer)) : IsReduced rooted
    (".." :: ".." :: outer) := by
  obtain ⟨ns, k, heq, hns, hk⟩ := h.form
  cases ns with
  | nil =>
    refine ⟨[], k + 1, by rw [heq]; rfl, hns, fun hrooted => ?_⟩
    rw [hk hrooted] at heq
    exact nomatch heq
  | cons n ns => exact absurd (List.cons.inj heq).1.symm (hns n List.mem_cons_self).ne_dots

/-- A name at the head can be taken back. -/
theorem tail {head : String} {outer : List String} (h : IsReduced rooted (head :: outer)) (hhead : head ≠ "..") :
    IsReduced rooted outer := by
  obtain ⟨ns, k, heq, hns, hk⟩ := h.form
  cases ns with
  | nil =>
    cases k with
    | zero => exact nomatch heq
    | succ k => exact absurd (List.cons.inj heq).1 hhead
  | cons n ns => exact ⟨ns, k, (List.cons.inj heq).2, (List.forall_mem_cons.1 hns).2, hk⟩

theorem reduceComponents {parts : List String} (h : IsReduced rooted kept) (hparts : ∀ s ∈ parts, IsPart s) :
    IsReduced rooted (Path.reduceComponents rooted kept parts) := by
  fun_induction Path.reduceComponents rooted kept parts with
  | case1 => exact h
  | case2 _ _ ih => exact ih h (List.forall_mem_cons.1 hparts).2
  | case3 _ ih =>
    refine ih ?_ (List.forall_mem_cons.1 hparts).2
    cases rooted with
    | false => exact ⟨[], 1, rfl, fun _ h => absurd h List.not_mem_nil, nofun⟩
    | true => exact nil true
  | case4 _ _ ih => exact ih h.out (List.forall_mem_cons.1 hparts).2
  | case5 _ _ _ hhead ih => exact ih (h.tail hhead) (List.forall_mem_cons.1 hparts).2
  | case6 _ c _ hdot hdots ih =>
    rw [List.forall_mem_cons] at hparts
    exact ih (h.name ⟨hparts.1, hdot, hdots⟩) hparts.2

/-- Steps out of the start are kept as they are, unless they lead out of the root. -/
theorem reduceComponents_replicate (j k : Nat) :
    Path.reduceComponents false (List.replicate j "..") (List.replicate k "..") = List.replicate (j + k) ".." := by
  induction k generalizing j with
  | zero => rfl
  | succ k ih =>
    have hstep : Path.reduceComponents false (List.replicate j "..") (".." :: List.replicate k "..") =
        Path.reduceComponents false (List.replicate (j + 1) "..") (List.replicate k "..") := by
      cases j <;> rfl
    rw [List.replicate_succ, hstep, ih, Nat.add_assoc, Nat.add_comm 1 k]

/-- What is reduced already stays as it is. -/
theorem reduceComponents_reverse (h : IsReduced rooted kept) : Path.reduceComponents rooted
    [] kept.reverse = kept := by
  obtain ⟨ns, k, rfl, hns, hk⟩ := h.form
  have hnames : ∀ n ∈ ns.reverse, IsName n := fun n hn => hns n (List.mem_reverse.1 hn)
  have hstart : Path.reduceComponents rooted [] (List.replicate k "..") = List.replicate k ".." := by
    cases rooted with
    | true => rw [hk rfl]; rfl
    | false =>
      have h := reduceComponents_replicate 0 k
      rwa [Nat.zero_add] at h
  rw [List.reverse_append, List.reverse_replicate, reduceComponents_append, hstart,
    reduceComponents_of_names hnames,
    List.reverse_reverse]

/-- All that is left is a part of a path. -/
theorem isPart (h : IsReduced rooted kept) : ∀ s ∈ kept, IsPart s := by
  obtain ⟨ns, k, rfl, hns, -⟩ := h.form
  intro s hs
  rcases List.mem_append.1 hs with hs | hs
  · exact (hns s hs).toIsPart
  · obtain rfl := List.eq_of_mem_replicate hs
    exact ⟨by decide, by decide⟩

/-- From the root there are names only. -/
theorem isName (h : IsReduced true kept) : ∀ n ∈ kept, IsName n := by
  obtain ⟨ns, k, rfl, hns, hk⟩ := h.form
  rw [hk rfl, List.replicate_zero, List.append_nil]
  exact hns

end IsReduced

/-! ### Names of a path -/

/-- The names that a path passes, after the steps that lead out of its start. -/
def names (path : String) : List String := (reduceComponents (isAbsolute path) [] (components path)).reverse

theorem isReduced_names (path : String) : IsReduced (isAbsolute path) (names path).reverse := by
  rw [names, List.reverse_reverse]
  exact (IsReduced.nil _).reduceComponents fun _ => isPart_of_mem_components

theorem isPart_of_mem_names {path s : String} (h : s ∈ names path) : IsPart s :=
  (isReduced_names path).isPart s (List.mem_reverse.2 h)

theorem isName_of_mem_names {path n : String} (habs : isAbsolute path = true) (h : n ∈ names path) : IsName n := by
  have hreduced := isReduced_names path
  rw [habs] at hreduced
  exact hreduced.isName n (List.mem_reverse.2 h)

theorem isAbsolute_iff {path : String} : isAbsolute path = true ↔ path.toList.head? = some '/' := by
  rw [isAbsolute, String.startsWith_string_iff]
  cases path.toList with
  | nil => exact ⟨fun h => absurd h (by decide), nofun⟩
  | cons c cs => simp [eq_comm]

theorem isAbsolute_dot : isAbsolute "." = false := by
  rw [Bool.eq_false_iff, Ne, isAbsolute_iff]
  decide

theorem head?_intercalate {s : String} (hs : s ≠ "") (rest : List String) :
    ("/".intercalate (s :: rest)).toList.head? = s.toList.head? := by
  cases rest with
  | nil => rw [String.intercalate_singleton]
  | cons s' rest =>
    rw [String.intercalate_cons_cons, String.toList_append, String.toList_append, List.append_assoc]
    cases hcs : s.toList with
    | nil => exact absurd (String.toList_eq_nil_iff.1 hcs) hs
    | cons c cs => rfl

/-- A path that starts with a part does not start at the root. -/
theorem isAbsolute_intercalate {parts : List String} (h : ∀ s ∈ parts, IsPart s) :
    isAbsolute ("/".intercalate parts) = false := by
  rw [Bool.eq_false_iff, Ne, isAbsolute_iff]
  cases parts with
  | nil => decide
  | cons s rest =>
    rw [List.forall_mem_cons] at h
    rw [head?_intercalate h.1.ne_empty]
    exact fun hslash => h.1.slash_notMem (List.mem_of_mem_head? hslash)

theorem isAbsolute_slash (path : String) : isAbsolute ("/" ++ path) = true := by
  rw [isAbsolute_iff, String.toList_append]
  rfl

theorem intercalate_eq_empty {parts : List String} (h : ∀ s ∈ parts, IsPart s) : "/".intercalate parts = "" ↔
    parts = [] := by
  constructor
  · intro hempty
    have hparts := components_intercalate h
    rwa [hempty, components_empty, eq_comm] at hparts
  · rintro rfl
    exact String.intercalate_nil

theorem clean_eq (path : String) : clean path =
    if isAbsolute path then "/" ++ "/".intercalate (names path)
    else if names path = [] then "." else "/".intercalate (names path) := by
  unfold clean
  dsimp only
  rw [← names]
  split
  · rfl
  · simp only [intercalate_eq_empty fun _ => isPart_of_mem_names]

theorem isAbsolute_clean (path : String) : isAbsolute (clean path) = isAbsolute path := by
  rw [clean_eq]
  split
  · rename_i habs
    rw [isAbsolute_slash, habs]
  · rename_i habs
    rw [Bool.eq_false_iff.2 habs]
    split
    · exact isAbsolute_dot
    · exact isAbsolute_intercalate fun _ => isPart_of_mem_names

theorem clean_ne_empty (path : String) : clean path ≠ "" := by
  rw [clean_eq]
  split
  · exact fun h => absurd (String.append_eq_empty_iff.1 h).1 (by decide)
  · split
    · decide
    · rename_i hne
      rwa [Ne, intercalate_eq_empty fun _ => isPart_of_mem_names]

/-- The components of a cleaned path are its names, or a dot if there is none. -/
theorem components_clean (path : String) : components (clean path) =
    if isAbsolute path = false ∧ names path = [] then ["."] else names path := by
  have hnames : components ("/".intercalate (names path)) = names path :=
    components_intercalate fun _ => isPart_of_mem_names
  rw [clean_eq]
  cases habs : isAbsolute path with
  | true =>
    have h := components_append "" ("/".intercalate (names path))
    rw [String.empty_append, components_empty, List.nil_append, hnames] at h
    simp [h]
  | false =>
    by_cases hnil : names path = []
    · simp only [hnil, if_neg Bool.false_ne_true, ↓reduceIte, and_self]
      decide
    · simp [hnil, hnames]

theorem names_clean (path : String) : names (clean path) = names path := by
  have hreduced := (isReduced_names path).reduceComponents_reverse
  rw [List.reverse_reverse] at hreduced
  rw [names, isAbsolute_clean, components_clean]
  split
  · rename_i h
    rw [h.1, h.2]
    rfl
  · rw [hreduced, List.reverse_reverse]

/-- Paths that are cleaned are known by their names and by whether they start at the root. -/
theorem clean_eq_clean_iff {a b : String} : clean a = clean b ↔ isAbsolute a = isAbsolute b ∧
    names a = names b := by
  constructor
  · intro h
    exact ⟨by rw [← isAbsolute_clean a, h, isAbsolute_clean], by rw [← names_clean a, h, names_clean]⟩
  · rintro ⟨habs, hnames⟩
    rw [clean_eq, clean_eq, habs, hnames]

/-! ### Paths below others -/

theorem toList_append_slash (a b : String) : (a ++ "/" ++ b).toList = a.toList ++ '/' :: b.toList := by
  rw [String.toList_append, String.toList_append, List.append_assoc]
  rfl

theorem isAbsolute_append {a : String} (ha : a ≠ "") (b : String) : isAbsolute (a ++ "/" ++ b) = isAbsolute a := by
  rw [Bool.eq_iff_iff, isAbsolute_iff, isAbsolute_iff, toList_append_slash]
  cases hcs : a.toList with
  | nil => exact absurd (String.toList_eq_nil_iff.1 hcs) ha
  | cons c cs => rfl

theorem join_eq {a b : String} (ha : a ≠ "") (hb : b ≠ "") : join [a, b] = clean (a ++ "/" ++ b) := by
  simp [join, ha, hb]

theorem isAbsolute_join {a b : String} (ha : a ≠ "") (hb : b ≠ "") : isAbsolute (join [a, b]) = isAbsolute a := by
  rw [join_eq ha hb, isAbsolute_clean, isAbsolute_append ha]

/-- Names lead on from where a path has come to. -/
theorem names_join {a b : String} (ha : a ≠ "") (hb : b ≠ "") (hnames : ∀ s ∈ components b, IsName s) :
    names (join [a, b]) = names a ++ components b := by
  rw [join_eq ha hb, names_clean, names, isAbsolute_append ha, components_append, reduceComponents_append,
    reduceComponents_of_names hnames, List.reverse_append, List.reverse_reverse, names]

theorem components_of_isPart {s : String} (h : IsPart s) : components s = [s] := by
  have hparts := components_intercalate fun n hn => List.mem_singleton.1 hn ▸ h
  rwa [String.intercalate_singleton] at hparts

/-- A name that ends a path stays its last component. -/
theorem components_join_last {last tail : String} {inner : List String} (h : IsName last)
    (htail : components tail = inner ++ [last]) (parts : List String) :
    ∃ ns, components (join (parts ++ [tail])) = ns ++ [last] := by
  have hlast : ∀ n ∈ [last], IsName n := fun n hn => List.mem_singleton.1 hn ▸ h
  have hne : tail ≠ "" := by
    rintro rfl
    simp [components_empty] at htail
  have hfilter : (parts ++ [tail]).filter (· ≠ "") = parts.filter (· ≠ "") ++ [tail] := by
    simp [List.filter_append, hne]
  obtain ⟨path, hpath, before, hbefore⟩ : ∃ path, join (parts ++ [tail]) = clean path ∧
      ∃ before, components path = before ++ [last] := by
    unfold join
    rw [hfilter]
    cases hkept : parts.filter (· ≠ "") with
    | nil => exact ⟨_, rfl, inner, by rw [List.nil_append, String.intercalate_singleton, htail]⟩
    | cons first rest =>
      refine ⟨_, rfl, components ("/".intercalate (first :: rest)) ++ inner, ?_⟩
      rw [String.intercalate_append_of_ne_nil (List.cons_ne_nil _ _) (List.cons_ne_nil _ _), components_append,
        String.intercalate_singleton, htail, List.append_assoc]
  have hnames : names path = (reduceComponents (isAbsolute path) [] before).reverse ++ [last] := by
    rw [names, hbefore, reduceComponents_append, reduceComponents_of_names hlast, List.reverse_append]
    rfl
  refine ⟨(reduceComponents (isAbsolute path) [] before).reverse, ?_⟩
  rw [hpath, components_clean, hnames, if_neg (by simp)]

theorem exists_absolute_eq_clean {workDir : String} (h : isAbsolute workDir = true) (path : String) :
    ∃ q, absolute workDir path = clean q ∧ isAbsolute q = true := by
  have hne : workDir ≠ "" := by
    rintro rfl
    exact absurd (isAbsolute_iff.1 h) nofun
  unfold absolute
  split
  · exact ⟨path, rfl, ‹_›⟩
  · by_cases hpath : path = ""
    · exact ⟨workDir, by simp [join, hne, hpath], h⟩
    · exact ⟨_, join_eq hne hpath, by rw [isAbsolute_append hne, h]⟩

theorem isAbsolute_absolute {workDir : String} (h : isAbsolute workDir = true) (path : String) :
    isAbsolute (absolute workDir path) = true := by
  obtain ⟨q, hq, habs⟩ := exists_absolute_eq_clean h path
  rw [hq, isAbsolute_clean, habs]

/-- Paths from the root are known by their names. -/
theorem absolute_eq_of_names {workDir a b : String} (h : isAbsolute workDir = true)
    (hnames : names (absolute workDir a) = names (absolute workDir b)) : absolute workDir a =
    absolute workDir b := by
  obtain ⟨p, hp, hpabs⟩ := exists_absolute_eq_clean h a
  obtain ⟨q, hq, hqabs⟩ := exists_absolute_eq_clean h b
  rw [hp, hq, names_clean, names_clean] at hnames
  rw [hp, hq, clean_eq_clean_iff]
  exact ⟨hpabs.trans hqabs.symm, hnames⟩

/-- From a path to one below it only names lead. -/
theorem relative_of_names {base target : String} {rest : List String} (hbase : isAbsolute base = true)
    (htarget : isAbsolute target = true) (h : names target = names base ++ rest) (hrest : rest ≠ []) :
    relative base target = .ok ("/".intercalate rest) := by
  have hne : clean target ≠ clean base := by
    intro heq
    have hnames := (clean_eq_clean_iff.1 heq).2
    rw [h, List.append_right_eq_self] at hnames
    exact hrest hnames
  have hdot : clean base ≠ "." := by
    intro heq
    rw [← isAbsolute_clean, heq, isAbsolute_dot] at hbase
    exact absurd hbase Bool.false_ne_true
  have hcomponents {path : String} (habs : isAbsolute path = true) : components (clean path) = names path := by
    rw [components_clean, habs]
    rfl
  have hcommon (bs : List String) : ((bs.zip (bs ++ rest)).takeWhile fun p => p.1 = p.2).length = bs.length := by
    induction bs with
    | nil => simp
    | cons b bs ih => simpa using ih
  unfold relative
  dsimp only
  rw [if_neg hne, if_neg hdot, isAbsolute_clean, isAbsolute_clean, hbase, htarget, if_neg (not_not_intro rfl),
    hcomponents hbase,
    hcomponents htarget, h, hcommon, List.drop_length, List.drop_left]
  rfl

/-! ### Extensions -/

/-- What is put behind the last separator of a text belongs to its last part. -/
theorem splitOn_append_of_notMem {sep : Char} (xs : List Char) {ys : List Char} (hys : sep ∉ ys) :
    ∃ before last, xs.splitOn sep = before ++ [last] ∧ (xs ++ ys).splitOn sep = before ++ [last ++ ys] := by
  induction xs with
  | nil => exact ⟨[], [], by simp, by simp [List.splitOn_eq_singleton hys]⟩
  | cons x xs ih =>
    obtain ⟨before, last, hxs, hxys⟩ := ih
    rw [List.cons_append, List.splitOn_cons_eq_if_modifyHead, List.splitOn_cons_eq_if_modifyHead, hxs, hxys]
    split
    · exact ⟨[] :: before, last, rfl, rfl⟩
    · cases before with
      | nil => exact ⟨[], x :: last, rfl, rfl⟩
      | cons first rest => exact ⟨(x :: first) :: rest, last, rfl, rfl⟩

/-- A path that does not end with a dot or a slash ends with a name. -/
theorem components_append_char (cs : List Char) {c : Char} (hdot : c ≠ '.') (hslash : c ≠ '/') :
    ∃ inner last, components (String.ofList (cs ++ [c])) = inner ++ [String.ofList (last ++ [c])] ∧
      IsName (String.ofList (last ++ [c])) := by
  have hnotMem : '/' ∉ [c] := fun hmem => hslash (List.mem_singleton.1 hmem).symm
  obtain ⟨before, last, -, hparts⟩ := splitOn_append_of_notMem cs hnotMem
  have hne : String.ofList (last ++ [c]) ≠ "" := by simp
  have hcomponents : components (String.ofList (cs ++ [c])) =
      (before.map String.ofList).filter (· ≠ "") ++ [String.ofList (last ++ [c])] := by
    rw [components, split, String.toList_ofList, hparts, List.map_append, List.filter_append, List.map_singleton,
      List.filter_cons_of_pos (p := (· ≠ "")) (decide_eq_true hne), List.filter_nil]
  refine ⟨_, last, hcomponents,
    isPart_of_mem_components (hcomponents ▸ List.mem_append_right _ (List.mem_singleton.2 rfl)), ?_, ?_⟩
  all_goals
    intro heq
    have hlast := congrArg (fun s => s.toList.getLast?) heq
    simp only [String.toList_ofList, List.getLast?_concat] at hlast
    exact hdot (Option.some.inj hlast)

theorem extension_append {stem ext : String} (hslash : '/' ∉ ext.toList) (hdot : '.' ∉ ext.toList) :
    extension (stem ++ "." ++ ext) = "." ++ ext := by
  have hcs : (stem ++ "." ++ ext).toList = stem.toList ++ '.' :: ext.toList := by
    rw [String.toList_append, String.toList_append, List.append_assoc]
    rfl
  have hnotMem : '/' ∉ '.' :: ext.toList := by simp [hslash]
  obtain ⟨before, last, -, hparts⟩ := splitOn_append_of_notMem stem.toList hnotMem
  have hlast : (split '/' (stem ++ "." ++ ext)).getLastD "" = String.ofList (last ++ '.' :: ext.toList) := by
    rw [split, hcs, hparts]
    simp
  have hdots : split '.' (String.ofList (last ++ '.' :: ext.toList)) = split '.' (String.ofList last) ++ [ext] := by
    rw [split_append_sep, String.ofList_toList, split_of_notMem hdot]
  unfold extension
  dsimp only
  rw [hlast, hdots, List.reverse_append]
  have hne : split '.' (String.ofList last) ≠ [] := by simp [split, List.splitOn_ne_nil]
  cases hparts : (split '.' (String.ofList last)).reverse with
  | nil => exact absurd (List.reverse_eq_nil_iff.1 hparts) hne
  | cons p ps => rfl

theorem withoutExtension_append {stem ext : String} (hslash : '/' ∉ ext.toList) (hdot : '.' ∉ ext.toList) :
    withoutExtension (stem ++ "." ++ ext) = stem := by
  have hlength : (stem ++ "." ++ ext).toList.length - ("." ++ ext).length = stem.toList.length := by
    simp only [String.toList_append, List.length_append, String.length_append, String.length_toList]
    omega
  have hcopy (s : String) (n : Nat) : (s.dropEnd n).toString = (s.dropEnd n).copy := rfl
  rw [withoutExtension, extension_append hslash hdot, ← String.toList_inj, hcopy,
    String.toList_copy_dropEnd, hlength,
    String.toList_append, String.toList_append, List.append_assoc, List.take_left]

end TypedScript.Path
