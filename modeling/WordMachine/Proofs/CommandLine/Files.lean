import WordMachine.CommandLine.Outcome

/-!
# Writing to a tree of files

Making directories changes no file (`files_makeDirectory?`), and writing a file changes no other one
(`content?_put_of_ne`). Both leave every directory a directory, so a path leads where it led before
(`locate?_mono`), and what was written is read again. A path is writable if the directory it stands
in is there or can be made and the path does not lead to a directory (`Writable`); for a path of
names that means that no file stands on the way (`writable_ofNames`).
-/

namespace WordMachine

/-! ## Paths of names -/

namespace Path

/-- Whether a component leads on from the directory it stands in. -/
structure IsName (component : List Char) : Prop where
  no_slash : '/' ∉ component
  not_trivial : isTrivial component = false
  not_parent : component ≠ ['.', '.']

instance (component : List Char) : Decidable (IsName component) :=
  decidable_of_iff ('/' ∉ component ∧ isTrivial component = false ∧ component ≠ ['.', '.'])
    ⟨fun ⟨h, h', h''⟩ => ⟨h, h', h''⟩, fun ⟨h, h', h''⟩ => ⟨h, h', h''⟩⟩

/-- The relative path of names. -/
def ofNames (names : List (List Char)) : String :=
  String.ofList (['/'].intercalate names)

variable {names : List (List Char)} {name : List Char}

theorem components_ofNames (hne : names ≠ []) (h : ∀ n ∈ names, IsName n) :
    components (ofNames names) = names := by
  rw [components, ofNames, String.toList_ofList]
  exact List.splitOn_intercalate '/' (fun n hn => (h n hn).no_slash) hne

theorem dropTrivial_of_names (h : ∀ n ∈ names, IsName n) : dropTrivial names = names := by
  have hkept : (names.drop 1).reverse.dropWhile isTrivial = (names.drop 1).reverse := by
    cases hlast : (names.drop 1).reverse with
    | nil => rfl
    | cons n rest =>
      have hmem : n ∈ names := by
        apply List.mem_of_mem_drop (i := 1)
        rw [← List.mem_reverse, hlast]
        exact List.mem_cons_self
      exact List.dropWhile_cons_of_neg (by simp [(h n hmem).not_trivial])
  rw [dropTrivial, hkept, List.reverse_reverse, List.take_append_drop]

theorem parent_ofNames (h : ∀ n ∈ names ++ [name], IsName n) :
    parent (ofNames (names ++ [name])) = ofNames names := by
  have hnames : ∀ n ∈ names, IsName n := fun n hn => h n (List.mem_append_left _ hn)
  have hroot : names ≠ [[]] := by
    rintro rfl
    exact absurd (hnames [] (List.mem_singleton_self _)).not_trivial (by decide)
  rw [parent, components_ofNames (by simp) h, dropTrivial_of_names h, List.dropLast_concat,
    dropTrivial_of_names hnames]
  exact if_neg hroot

theorem not_startsWith_ofNames (h : ∀ n ∈ names, IsName n) :
    (ofNames names).startsWith "/" = false := by
  rw [String.startsWith_string_eq_false_iff, ofNames, String.toList_ofList]
  rintro ⟨rest, hrest⟩
  cases names with
  | nil => cases hrest
  | cons n names =>
    have hn := h n List.mem_cons_self
    cases n with
    | nil => exact absurd hn.not_trivial (by decide)
    | cons c cs =>
      have hslash : c = '/' := by
        rw [String.toList_ofList] at hrest
        cases names with
        | nil => exact (List.cons.inj hrest).1.symm
        | cons n' names => exact (List.cons.inj hrest).1.symm
      exact hn.no_slash (hslash ▸ List.mem_cons_self)

end Path

namespace FileTree

variable {t t' : FileTree} {location l : List (List Char)} {content : String}

/-! ## Directories stay -/

/-- Whether all directories of a tree are directories of another one. -/
def Keeps (t t' : FileTree) : Prop :=
  ∀ l, t.isDirectory l = true → t'.isDirectory l = true

theorem enter?_mono (h : t.Keeps t') {component : List Char} {next : List (List Char)}
    (henter : t.enter? location component = some next) :
    t'.enter? location component = some next := by
  unfold enter? at henter ⊢
  cases hdirectory : t.isDirectory location with
  | false => simp [hdirectory] at henter
  | true =>
    rw [hdirectory] at henter
    rw [h location hdirectory]
    exact henter

theorem locate?_mono (h : t.Keeps t') {path : String} (hlocate : t.locate? path = some location) :
    t'.locate? path = some location := by
  have hfold (components : List (List Char)) {start : List (List Char)}
      (hstart : components.foldlM t.enter? start = some location) :
      components.foldlM t'.enter? start = some location := by
    induction components generalizing start with
    | nil => exact hstart
    | cons component components ih =>
      rw [List.foldlM_cons] at hstart ⊢
      obtain ⟨next, hnext, hrest⟩ := Option.bind_eq_some_iff.1 hstart
      exact Option.bind_eq_some_iff.2 ⟨next, enter?_mono h hnext, ih hrest⟩
  unfold locate? at hlocate ⊢
  split at hlocate
  · cases hlocate
  · next habsolute =>
    rw [if_neg habsolute]
    exact hfold _ hlocate

theorem enter?_name (hl : t.isDirectory l = true) {name : List Char} (h : Path.IsName name) :
    t.enter? l name = some (l ++ [name]) := by
  rw [enter?, hl, h.not_trivial]
  simp [h.not_parent]

/-- Names lead through directories. -/
theorem foldlM_enter? {names : List (List Char)} (hnames : ∀ n ∈ names, Path.IsName n)
    (hdirectories : ∀ k < names.length, t.isDirectory (l ++ names.take k) = true) :
    names.foldlM t.enter? l = some (l ++ names) := by
  induction names generalizing l with
  | nil => simp
  | cons name names ih =>
    have hl : t.isDirectory l = true := by simpa using hdirectories 0 (by simp)
    rw [List.foldlM_cons, enter?_name hl (hnames name List.mem_cons_self)]
    have hrest : ∀ k < names.length, t.isDirectory (l ++ [name] ++ names.take k) = true := by
      intro k hk
      simpa using hdirectories (k + 1) (by simpa using hk)
    simpa using ih (fun n hn => hnames n (List.mem_cons_of_mem _ hn)) hrest

/-! ## Files -/

theorem content?_put_self (t : FileTree) (location : List (List Char)) (content : String) :
    (t.put location content).content? location = some content :=
  List.lookup_cons_self

/-- Writing a file leaves the others as they were. -/
theorem content?_put_of_ne (t : FileTree) (content : String) (h : l ≠ location) :
    (t.put location content).content? l = t.content? l := by
  have hhead : (l == location) = false := beq_false_of_ne h
  simp only [put, content?, List.lookup_cons, hhead]
  induction t.files with
  | nil => rfl
  | cons file files ih =>
    obtain ⟨place, text⟩ := file
    by_cases hplace : place = location
    · rw [List.filter_cons_of_neg (by simp [hplace]), ih, List.lookup_cons, hplace, hhead]
    · rw [List.filter_cons_of_pos (by simp [hplace]), List.lookup_cons, List.lookup_cons, ih]

theorem keeps_put (t : FileTree) (location : List (List Char)) (content : String) :
    t.Keeps (t.put location content) := by
  intro l h
  simp only [isDirectory, put, Bool.or_eq_true, List.any_cons, List.any_eq_true] at h ⊢
  rcases h with h | ⟨file, hfile, hl⟩
  · exact .inl h
  · -- The file below the directory is still there, or it is the one that was replaced.
    right
    by_cases hplace : file.1 = location
    · rw [← hplace]
      exact .inl hl
    · exact .inr ⟨file, List.mem_filter.2 ⟨hfile, bne_iff_ne.2 hplace⟩, hl⟩

/-! ## Making directories -/

theorem files_enterOrMake? {component : List Char} {x : FileTree × List (List Char)}
    (h : enterOrMake? (t, location) component = some x) : x.1.files = t.files := by
  obtain ⟨next, -, h⟩ := Option.bind_eq_some_iff.1 h
  split at h
  · cases h
    rfl
  · split at h
    · cases h
    · cases h
      rfl

theorem files_makeDirectory? {path : String} (h : t.makeDirectory? path = some t') :
    t'.files = t.files := by
  have hfold (components : List (List Char)) {x y : FileTree × List (List Char)}
      (hx : components.foldlM enterOrMake? x = some y) : y.1.files = x.1.files := by
    induction components generalizing x with
    | nil =>
      cases hx
      rfl
    | cons component components ih =>
      rw [List.foldlM_cons] at hx
      obtain ⟨z, hz, hrest⟩ := Option.bind_eq_some_iff.1 hx
      rw [ih hrest, files_enterOrMake? hz]
  unfold makeDirectory? at h
  split at h
  · cases h
  · obtain ⟨x, hx, rfl⟩ := Option.map_eq_some_iff.1 h
    exact hfold _ hx

/-- The tree with one more directory. -/
def addDirectory (t : FileTree) (l : List (List Char)) : FileTree :=
  { t with directories := l :: t.directories }

theorem keeps_addDirectory (t : FileTree) (l : List (List Char)) : t.Keeps (t.addDirectory l) := by
  intro l' h
  simp only [isDirectory, addDirectory, Bool.or_eq_true, List.contains_cons] at h ⊢
  rcases h with (h | h) | h
  · exact .inl (.inl h)
  · exact .inl (.inr (.inr h))
  · exact .inr h

theorem isDirectory_addDirectory (t : FileTree) (l : List (List Char)) :
    (t.addDirectory l).isDirectory l = true := by
  simp [isDirectory, addDirectory]

/-- One name is followed, and made a directory if nothing is there. -/
theorem exists_enterOrMake? (hl : t.isDirectory l = true) {name : List Char} (h : Path.IsName name)
    (hfree : t.content? (l ++ [name]) = none) :
    ∃ t', enterOrMake? (t, l) name = some (t', l ++ [name]) ∧ t.Keeps t' ∧
      t'.isDirectory (l ++ [name]) = true ∧
      ∀ d ∈ t'.directories, d ∈ t.directories ∨ d = l ++ [name] := by
  have henter := enter?_name hl h
  by_cases hthere : t.isDirectory (l ++ [name]) = true
  · refine ⟨t, ?_, fun _ h => h, hthere, fun d hd => .inl hd⟩
    simp [enterOrMake?, henter, hthere]
  · refine ⟨t.addDirectory (l ++ [name]), ?_, t.keeps_addDirectory _,
      t.isDirectory_addDirectory _, ?_⟩
    · simp [enterOrMake?, henter, hthere, hfree, addDirectory]
    · intro d hd
      exact (List.mem_cons.1 hd).symm

/-- Directories are made on a way that no file stands on. What is new is no longer than the way. -/
theorem foldlM_enterOrMake? {names : List (List Char)} (hnames : ∀ n ∈ names, Path.IsName n)
    (hl : t.isDirectory l = true)
    (hfree : ∀ k < names.length, t.content? (l ++ names.take (k + 1)) = none) :
    ∃ t', names.foldlM enterOrMake? (t, l) = some (t', l ++ names) ∧ t.Keeps t' ∧
      (∀ k ≤ names.length, t'.isDirectory (l ++ names.take k) = true) ∧
      ∀ d ∈ t'.directories, d ∈ t.directories ∨ d.length ≤ (l ++ names).length := by
  induction names generalizing t l with
  | nil => exact ⟨t, by simp, fun _ h => h, by simpa using hl, fun d hd => .inl hd⟩
  | cons name names ih =>
    have hnone : t.content? (l ++ [name]) = none := by simpa using hfree 0 (by simp)
    obtain ⟨t₁, hmake, hkeeps, hdirectory, hnew⟩ :=
      exists_enterOrMake? hl (hnames name List.mem_cons_self) hnone
    have hfree₁ : ∀ k < names.length, t₁.content? (l ++ [name] ++ names.take (k + 1)) = none := by
      intro k hk
      have hsame (l : List (List Char)) : t₁.content? l = t.content? l := by
        rw [content?, content?, files_enterOrMake? hmake]
      rw [hsame]
      simpa using hfree (k + 1) (by simpa using hk)
    obtain ⟨t', hfold, hkeeps', hdirectories, hnew'⟩ :=
      ih (fun n hn => hnames n (List.mem_cons_of_mem _ hn)) hdirectory hfree₁
    refine ⟨t', ?_, fun d hd => hkeeps' d (hkeeps d hd), ?_, ?_⟩
    · rw [List.foldlM_cons, hmake]
      simpa using hfold
    · intro k hk
      cases k with
      | zero => simpa using hkeeps' l (hkeeps l hl)
      | succ k => simpa using hdirectories k (by simpa using hk)
    · intro d hd
      simp only [List.length_append, List.length_cons, List.length_nil] at hnew' ⊢
      rcases hnew' d hd with hd | hd
      · rcases hnew d hd with hd | rfl
        · exact .inl hd
        · exact .inr (by simp)
      · exact .inr (by omega)

/-! ## Writable paths -/

/-- The tree with the directory that a path stands in. -/
def withParent? (t : FileTree) (path : String) : Option FileTree :=
  if Path.parent path = "" then some t else t.makeDirectory? (Path.parent path)

/-- Whether a file can be written at a path. -/
def Writable (t : FileTree) (path : String) : Prop :=
  ∃ t' location, t.withParent? path = some t' ∧ t'.locate? path = some location ∧
    t'.isDirectory location = false

theorem files_withParent? {path : String} (h : t.withParent? path = some t') :
    t'.files = t.files := by
  unfold withParent? at h
  split at h
  · cases h
    rfl
  · exact files_makeDirectory? h

/-- Writing at a writable path creates or replaces the file there and changes no other one. -/
theorem Writable.exists_write? {path : String} (h : t.Writable path) (content : String) :
    ∃ t₁ t' location, t.withParent? path = some t₁ ∧ t₁.write? path content = some t' ∧
      t'.locate? path = some location ∧ t'.content? location = some content ∧
      ∀ l, l ≠ location → t'.content? l = t.content? l := by
  obtain ⟨t₁, location, hparent, hlocate, hdirectory⟩ := h
  refine ⟨t₁, t₁.put location content, location, hparent, ?_,
    locate?_mono (t₁.keeps_put location content) hlocate, t₁.content?_put_self location content, ?_⟩
  · simp [write?, hlocate, hdirectory]
  · intro l hl
    rw [content?_put_of_ne _ _ hl, content?, content?, files_withParent? hparent]

/-- A path of names is writable if no file stands on the way and the path leads to no directory. -/
theorem writable_ofNames {names : List (List Char)} {name : List Char}
    (hnames : ∀ n ∈ names ++ [name], Path.IsName n)
    (hfree : ∀ k < names.length, t.content? (names.take (k + 1)) = none)
    (hplace : t.isDirectory (names ++ [name]) = false) :
    t.Writable (Path.ofNames (names ++ [name])) := by
  have hbefore : ∀ n ∈ names, Path.IsName n := fun n hn => hnames n (List.mem_append_left _ hn)
  obtain ⟨t', hfold, -, hdirectories, hnew⟩ := foldlM_enterOrMake? (l := []) hbefore rfl hfree
  have hparent : t.withParent? (Path.ofNames (names ++ [name])) = some t' := by
    rw [withParent?, Path.parent_ofNames hnames]
    cases names with
    | nil =>
      cases hfold
      rfl
    | cons n rest =>
      have hne : Path.ofNames (n :: rest) ≠ "" := by
        intro h
        have hcomponents := Path.components_ofNames (List.cons_ne_nil n rest) hbefore
        rw [h] at hcomponents
        obtain ⟨rfl, -⟩ := List.cons.inj hcomponents
        exact absurd (hbefore [] List.mem_cons_self).not_trivial (by decide)
      rw [if_neg hne, makeDirectory?, Path.not_startsWith_ofNames hbefore,
        Path.components_ofNames (List.cons_ne_nil n rest) hbefore, hfold]
      rfl
  refine ⟨t', names ++ [name], hparent, ?_, ?_⟩
  · rw [locate?, Path.not_startsWith_ofNames hnames, Path.components_ofNames (by simp) hnames]
    have hpath := foldlM_enter? (t := t') (l := []) hnames ?_
    · simpa using hpath
    · intro k hk
      rw [List.length_append, List.length_singleton] at hk
      rw [List.take_append_of_le_length (by omega)]
      exact hdirectories k (by omega)
  · rw [Bool.eq_false_iff] at hplace ⊢
    intro h
    apply hplace
    simp only [isDirectory, files_withParent? hparent, Bool.or_eq_true] at h ⊢
    rcases h with (h | h) | h
    · exact .inl (.inl h)
    · -- Only the directories in front of the last name are new.
      rcases hnew _ (List.contains_iff_mem.1 h) with h | h
      · exact .inl (.inr (List.contains_iff_mem.2 h))
      · rw [List.length_append, List.length_singleton, List.nil_append] at h
        exact absurd h (Nat.not_succ_le_self _)
    · exact .inr h

end FileTree

/-! ## Tools on a tree of files -/

namespace OnFiles

variable {α β ε : Type} {t t' : FileTree}

theorem run_read? (t : FileTree) (path : String) :
    (FileAccess.read? path : OnFiles (Option String)).run t = (t.read? path, t) :=
  rfl

theorem run_makeDirectory {path : String} (h : t.makeDirectory? path = some t') :
    (FileAccess.makeDirectory path : OnFiles Bool).run t = (true, t') := by
  simp only [FileAccess.makeDirectory, StateT.run_bind, StateT.run_get, pure_bind, h]
  rfl

theorem run_write {path content : String} (h : t.write? path content = some t') :
    (FileAccess.write path content : OnFiles Bool).run t = (true, t') := by
  simp only [FileAccess.write, StateT.run_bind, StateT.run_get, pure_bind, h]
  rfl

/-- A step that succeeds goes on in the tree that it leaves behind. -/
theorem run_bind {x : ExceptT ε OnFiles α} {f : α → ExceptT ε OnFiles β} {a : α}
    (h : x.run.run t = (.ok a, t')) : (x >>= f).run.run t = (f a).run.run t' := by
  simp only [ExceptT.run_bind, StateT.run_bind, h]
  rfl

theorem run_lift (ε : Type) {x : OnFiles α} {a : α} (h : x.run t = (a, t')) :
    (liftM x : ExceptT ε OnFiles α).run.run t = (.ok a, t') := by
  simp only [ExceptT.run_liftM, StateT.run_map, h]
  rfl

theorem run_readOr {message path content : String} (h : t.read? path = some content) :
    (readOr message path : ExceptT String OnFiles String).run.run t = (.ok content, t) := by
  have hread := run_read? t path
  rw [h] at hread
  exact run_bind (run_lift String hread)

end OnFiles

end WordMachine
