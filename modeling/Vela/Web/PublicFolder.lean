import Vela.Web.StaticFiles

/-! # The public folder

Which files the handler reads. The test that is to keep requests inside of the
public folder compares texts, so a sibling folder whose name continues that of
the public one passes it. -/

namespace Vela.StaticFiles

open Foundation PosixPath

/-- An absolute folder whose last component is `public`. -/
structure PublicFolder (directory : List Char) : Prop where
  absolute : directory.head? = some '/'
  named : (directory.splitOn '/').getLast? = some "public".toList

/-- The folders above the public one. -/
def parents (directory : List Char) : List (List Char) := (directory.splitOn '/').tail.dropLast

/-- The handler comes to `fs.readFile` with `file`. -/
def Passes (settings : Settings) (url file : List Char) : Prop :=
  ∃ urlPath, decodeURIComponent (pathOf url) = .ok urlPath ∧ urlPath ≠ "/config".toList ∧
    settings.directory <+: fileOf settings urlPath ∧ fileOf settings urlPath = file

/-- The folder itself, or a path behind it and a separator. -/
def Inside (directory file : List Char) : Prop :=
  file = directory ∨ directory ++ ['/'] <+: file

/-- The requested path goes up from the public folder and comes down, by the
folders above it, to a sibling whose name continues `public`. -/
def Escapes (directory url : List Char) : Prop :=
  (∀ folder ∈ parents directory, IsName folder) ∧
    ∃ urlPath name rest, Percent.Encodes (pathOf url) urlPath ∧
      0 < (climb urlPath).ups ∧
      (climb urlPath).downs.reverse =
        (parents directory).drop ((parents directory).length + 1 - (climb urlPath).ups) ++
          name :: rest ∧
      "public".toList <+: name ∧ name ≠ "public".toList

/-! ## The handler and its test -/

theorem passes_of_handler {settings : Settings} {url file : List Char}
    (reads : handler settings url = .ok (.readFile file)) : Passes settings url file := by
  rcases bind_eq_ok.mp reads with ⟨urlPath, decoded, returned⟩
  by_cases isConfig : urlPath = "/config".toList
  · rw [if_pos isConfig] at returned
    cases returned
  · rw [if_neg isConfig] at returned
    by_cases inside : settings.directory <+: fileOf settings urlPath
    · rw [if_neg (not_not.mpr inside), readFile] at returned
      split at returned
      · cases returned
      · cases returned
        exact ⟨urlPath, decoded, isConfig, inside, rfl⟩
    · rw [if_pos inside] at returned
      cases returned

theorem PublicFolder.splitOn {directory : List Char} (folder : PublicFolder directory) :
    directory.splitOn '/' = [] :: parents directory ++ ["public".toList] := by
  have named := folder.named
  have absolute := folder.absolute
  cases directory with
  | nil => cases absolute
  | cons first rest =>
      rw [List.head?_cons, Option.some.injEq] at absolute
      subst absolute
      rw [parents]
      rw [List.splitOn_cons_eq_if_modifyHead, if_pos (BEq.refl _)] at named ⊢
      rw [List.tail_cons, List.cons_append]
      congr 1
      rw [List.getLast?_cons_of_ne_nil (List.splitOn_ne_nil '/' rest)] at named
      rcases List.getLast?_eq_some_iff.mp named with ⟨above, restSplit⟩
      rw [restSplit, List.dropLast_concat]

/-- The text test, by segments. -/
theorem PublicFolder.prefix_iff {directory file : List Char} (folder : PublicFolder directory) :
    directory <+: file ↔ ∃ name rest,
      file.splitOn '/' = [] :: parents directory ++ name :: rest ∧ "public".toList <+: name :=
  PosixPath.prefix_iff folder.splitOn

theorem PublicFolder.inside_iff {directory file : List Char} (folder : PublicFolder directory) :
    Inside directory file ↔ ∃ rest,
      file.splitOn '/' = [] :: parents directory ++ "public".toList :: rest := by
  constructor
  · rintro (rfl | ⟨more, rfl⟩)
    · exact ⟨[], folder.splitOn⟩
    · refine ⟨more.splitOn '/', ?_⟩
      rw [List.append_assoc, List.singleton_append, List.splitOn_append_cons_self, folder.splitOn]
      simp
  · rintro ⟨rest, split⟩
    have split' : file.splitOn '/' = directory.splitOn '/' ++ rest := by
      rw [split, folder.splitOn]
      simp
    cases rest with
    | nil =>
        rw [List.append_nil] at split'
        exact .inl (eq_of_splitOn split')
    | cons first rest =>
        have whole : ∀ part ∈ first :: rest, '/' ∉ part := by
          intro part member
          have inFile : part ∈ file.splitOn '/' := by
            rw [split']
            exact List.mem_append_right _ member
          exact not_mem_of_mem_splitOn inFile
        have tail := List.splitOn_intercalate '/' whole (List.cons_ne_nil first rest)
        have same : file = directory ++ '/' :: ['/'].intercalate (first :: rest) := by
          apply eq_of_splitOn
          rw [split', List.splitOn_append_cons_self, tail]
        refine .inr ⟨['/'].intercalate (first :: rest), ?_⟩
        rw [same]
        simp

/-! ## Where a request leads -/

/-- The segments that a request leads to, below the root. -/
def leadsTo (directory urlPath : List Char) : List (List Char) :=
  ((urlPath.splitOn '/').foldl (descend false)
    ((directory.splitOn '/').foldl (descend false) [])).reverse

theorem fileOf_splitOn {settings : Settings} (folder : PublicFolder settings.directory)
    (urlPath : List Char) :
    ∃ trail, (trail = [] ∨ trail = [[]]) ∧
      (fileOf settings urlPath).splitOn '/' =
        [] :: (leadsTo settings.directory
          (if urlPath = ['/'] then "index.html".toList else urlPath) ++ trail) :=
  splitOn_join folder.absolute _

theorem leadsTo_eq {directory : List Char} (folder : PublicFolder directory)
    (names : ∀ above ∈ parents directory, IsName above) (urlPath : List Char) :
    leadsTo directory urlPath =
      (parents directory ++ ["public".toList]).take
        ((parents directory).length + 1 - (climb urlPath).ups) ++
      (climb urlPath).downs.reverse := by
  have publicName : IsName "public".toList := ⟨by decide, by decide, by decide, by decide⟩
  have folderNames : ∀ name ∈ parents directory ++ ["public".toList], IsName name := by
    intro name member
    rcases List.mem_append.mp member with above | last
    · exact names name above
    · rw [List.mem_singleton.mp last]
      exact publicName
  have start : (directory.splitOn '/').foldl (descend false) [] =
      (parents directory ++ ["public".toList]).reverse := by
    rw [folder.splitOn, List.cons_append, List.foldl_cons]
    have skip : descend false [] [] = [] := rfl
    rw [skip, foldl_descend_names folderNames, List.append_nil]
  rw [leadsTo, start, foldl_descend_folder folderNames, Climb.endsIn]
  simp

theorem isName_leadsTo {directory urlPath : List Char} :
    ∀ name ∈ leadsTo directory urlPath, IsName name := by
  intro name member
  apply @isName_foldl_descend ((directory.splitOn '/').foldl (descend false) [])
    (urlPath.splitOn '/')
  · apply @isName_foldl_descend [] (directory.splitOn '/')
    · intro other none
      cases none
    · exact fun part inside => not_mem_of_mem_splitOn inside
  · exact fun part inside => not_mem_of_mem_splitOn inside
  · exact List.mem_reverse.mp member

/-- A name among the segments of the file is one of those the request leads to. -/
theorem leadsTo_of_splitOn {directory urlPath name : List Char}
    {before rest trail : List (List Char)}
    (nonempty : name ≠ []) (trailing : trail = [] ∨ trail = [[]])
    (split : leadsTo directory urlPath ++ trail = before ++ name :: rest) :
    ∃ rest', leadsTo directory urlPath = before ++ name :: rest' := by
  rcases trailing with rfl | rfl
  · rw [List.append_nil] at split
    exact ⟨rest, split⟩
  · rcases List.eq_nil_or_concat rest with rfl | ⟨rest', last, rfl⟩
    · have lasts := congrArg List.getLast? split
      rw [List.getLast?_concat, List.getLast?_concat, Option.some.injEq] at lasts
      exact absurd lasts.symm nonempty
    · refine ⟨rest', ?_⟩
      have split' : leadsTo directory urlPath ++ [[]] = (before ++ name :: rest') ++ [last] := by
        rw [split]
        simp
      exact (List.append_inj' split' rfl).1

theorem decode_ok_iff {text decoded : List Char} :
    decodeURIComponent text = .ok decoded ↔ Percent.Encodes text decoded := by
  rw [← Percent.decode_eq_some, decodeURIComponent]
  cases Percent.decode text <;> simp

/-- A request that leads past the parents without having climbed stays in the
public folder. -/
theorem climbs_of_leadsTo {directory urlPath name : List Char} {rest : List (List Char)}
    (folder : PublicFolder directory)
    (split : leadsTo directory urlPath = parents directory ++ name :: rest)
    (other : name ≠ "public".toList) :
    (∀ above ∈ parents directory, IsName above) ∧ 0 < (climb urlPath).ups ∧
      (climb urlPath).downs.reverse =
        (parents directory).drop ((parents directory).length + 1 - (climb urlPath).ups) ++
          name :: rest := by
  have names : ∀ above ∈ parents directory, IsName above := by
    intro above member
    apply @isName_leadsTo directory urlPath
    rw [split]
    exact List.mem_append_left _ member
  rw [leadsTo_eq folder names] at split
  by_cases stays : (climb urlPath).ups = 0
  · rw [stays, Nat.sub_zero, List.take_of_length_le (by simp), List.append_assoc] at split
    have sameName := (List.cons.inj (List.append_cancel_left split)).1
    exact absurd sameName.symm other
  · refine ⟨names, Nat.pos_of_ne_zero stays, ?_⟩
    rw [List.take_append_of_le_length (by omega)] at split
    have cut := List.take_append_drop
      ((parents directory).length + 1 - (climb urlPath).ups) (parents directory)
    have same : (parents directory).take
          ((parents directory).length + 1 - (climb urlPath).ups) ++ (climb urlPath).downs.reverse =
        (parents directory).take ((parents directory).length + 1 - (climb urlPath).ups) ++
          ((parents directory).drop ((parents directory).length + 1 - (climb urlPath).ups) ++
            name :: rest) := by
      rw [split, ← List.append_assoc, cut]
    exact List.append_cancel_left same

/-- The handler reads files of the public folder only, but for requests that
climb out of it and come down in a sibling whose name continues `public`. -/
theorem stays_inside_iff (settings : Settings) (folder : PublicFolder settings.directory)
    (url : List Char) :
    (∀ file, Passes settings url file → Inside settings.directory file) ↔
      ¬ Escapes settings.directory url := by
  constructor
  · rintro always ⟨names, urlPath, name, rest, encodes, climbs, downs, continues, other⟩
    have notRoot : urlPath ≠ ['/'] := by
      rintro rfl
      exact absurd climbs (by decide)
    have notConfig : urlPath ≠ "/config".toList := by
      rintro rfl
      exact absurd climbs (by decide)
    have leads : leadsTo settings.directory urlPath =
        parents settings.directory ++ name :: rest := by
      rw [leadsTo_eq folder names, downs, List.take_append_of_le_length (by omega),
        ← List.append_assoc, List.take_append_drop]
    rcases fileOf_splitOn folder urlPath with ⟨trail, _, split⟩
    rw [if_neg notRoot, leads, List.append_assoc, List.cons_append] at split
    have passes : Passes settings url (fileOf settings urlPath) :=
      ⟨urlPath, decode_ok_iff.mpr encodes, notConfig,
        folder.prefix_iff.mpr ⟨name, rest ++ trail, split, continues⟩, rfl⟩
    rcases folder.inside_iff.mp (always _ passes) with ⟨more, inside⟩
    rw [split, List.cons_append] at inside
    have same := List.append_cancel_left (List.cons.inj inside).2
    exact other (List.cons.inj same).1
  · rintro stays file ⟨urlPath, decoded, _, passes, rfl⟩
    rcases folder.prefix_iff.mp passes with ⟨name, rest, split, continues⟩
    by_cases isPublic : name = "public".toList
    · rw [isPublic] at split
      exact folder.inside_iff.mpr ⟨rest, split⟩
    · rcases fileOf_splitOn folder urlPath with ⟨trail, trailing, leads⟩
      rw [split, List.cons_append] at leads
      have someName : name ≠ [] := by
        rintro rfl
        exact absurd continues (by decide)
      rcases leadsTo_of_splitOn someName trailing (List.cons.inj leads).2.symm with ⟨rest', led⟩
      rcases climbs_of_leadsTo folder led isPublic with ⟨names, climbs, downs⟩
      have notRoot : urlPath ≠ ['/'] := by
        rintro rfl
        exact absurd climbs (by decide)
      rw [if_neg notRoot] at climbs downs
      exact absurd ⟨names, urlPath, name, rest', decode_ok_iff.mp decoded, climbs, downs, continues,
        isPublic⟩ stays

theorem stays_inside_iff_example :
    (∀ file, Passes ⟨"/srv/public".toList, ""⟩ "/js/../app.js".toList file →
      Inside "/srv/public".toList file) ↔
      ¬ Escapes "/srv/public".toList "/js/../app.js".toList :=
  stays_inside_iff ⟨"/srv/public".toList, ""⟩ ⟨by decide, by decide +kernel⟩ _

/-- A sibling folder whose name continues that of the public one is served. -/
theorem sibling_is_served :
    ¬ ∀ (settings : Settings) (url file : List Char), PublicFolder settings.directory →
      Passes settings url file → Inside settings.directory file := by
  intro always
  have served : handler ⟨"/srv/public".toList, ""⟩ "/../public-secret/key".toList =
      .ok (.readFile "/srv/public-secret/key".toList) := by
    decide +kernel
  rcases always _ _ _ ⟨by decide, by decide +kernel⟩ (passes_of_handler served) with same | behind
  · exact absurd same (by decide)
  · exact absurd behind (by decide)

end Vela.StaticFiles
