import Mathlib.Data.List.Basic

/-! # Paths of a POSIX script

Joining and normalizing paths as text: empty segments and `.` go away, `..` takes
the segment before it along, and nothing is above the root. -/

namespace Vela.Foundation.PosixPath

/-- One segment on top of those before it, the last one first. -/
def descend (allowAboveRoot : Bool) (above : List (List Char)) (segment : List Char) :
    List (List Char) :=
  if segment = [] ∨ segment = ['.'] then above
  else if segment = ['.', '.'] then
    if above.head?.any (· ≠ ['.', '.']) then above.tail
    else if allowAboveRoot then segment :: above
    else above
  else segment :: above

def normalizeString (path : List Char) (allowAboveRoot : Bool) : List Char :=
  ['/'].intercalate ((path.splitOn '/').foldl (descend allowAboveRoot) []).reverse

def normalize (path : List Char) : List Char :=
  let isAbsolute : Bool := path.head? = some '/'
  let trailingSeparator : Bool := path.getLast? = some '/'
  match path, normalizeString path (!isAbsolute) with
  | [], _ => ['.']
  | _, [] => if isAbsolute then ['/'] else if trailingSeparator then ['.', '/'] else ['.']
  | _, normalized =>
      let ended := if trailingSeparator then normalized ++ ['/'] else normalized
      if isAbsolute then '/' :: ended else ended

def join (left right : List Char) : List Char :=
  if left = [] then normalize right
  else if right = [] then normalize left
  else normalize (left ++ '/' :: right)

/-- The end of the last segment, from its last `.` that does not begin it. -/
def extname (path : List Char) : List Char :=
  let name := (path.reverse.dropWhile (· = '/')).takeWhile (· ≠ '/')
  match name.dropWhile (· ≠ '.') with
  | [] => []
  | _ :: before =>
      if before = [] ∨ name = ['.', '.'] then [] else '.' :: (name.takeWhile (· ≠ '.')).reverse

example : join "/srv/public".toList "/a/./../b//c.js".toList = "/srv/public/b/c.js".toList := by
  decide +kernel

example : join "/srv/public".toList "/../public-old/".toList = "/srv/public-old/".toList := by
  decide +kernel

example : extname "/srv/public/a.b/index.html".toList = ".html".toList := by
  decide +kernel

/-! ## Segments -/

/-- A segment that stays in a normalized path. -/
structure IsName (segment : List Char) : Prop where
  nonempty : segment ≠ []
  notHere : segment ≠ ['.']
  notAbove : segment ≠ ['.', '.']
  whole : '/' ∉ segment

/-- The segments of an absolute path once it is normalized. -/
def segments (path : List Char) : List (List Char) :=
  ((path.splitOn '/').foldl (descend false) []).reverse

theorem not_mem_of_mem_splitOn {path segment : List Char} (member : segment ∈ path.splitOn '/') :
    '/' ∉ segment := by
  induction path generalizing segment with
  | nil =>
      rw [List.splitOn_nil, List.mem_singleton] at member
      rw [member]
      exact List.not_mem_nil
  | cons first rest induction =>
      rw [List.splitOn_cons_eq_if_modifyHead] at member
      split at member
      · rcases List.mem_cons.mp member with same | later
        · rw [same]
          exact List.not_mem_nil
        · exact induction later
      · rename_i differs
        rcases List.exists_cons_of_ne_nil (List.splitOn_ne_nil '/' rest) with ⟨head, tail, split⟩
        rw [split] at member induction
        rcases List.mem_cons.mp member with same | later
        · rw [same]
          intro inside
          rcases List.mem_cons.mp inside with isFirst | inHead
          · exact differs (beq_iff_eq.mpr isFirst.symm)
          · exact induction List.mem_cons_self inHead
        · exact induction (List.mem_cons_of_mem _ later)

theorem descend_name {above : List (List Char)} {segment : List Char} (name : IsName segment) :
    descend false above segment = segment :: above := by
  rw [descend, if_neg, if_neg name.notAbove]
  exact fun skipped => skipped.elim name.nonempty name.notHere

theorem isName_descend {above : List (List Char)} {segment : List Char}
    (names : ∀ other ∈ above, IsName other) (whole : '/' ∉ segment) :
    ∀ other ∈ descend false above segment, IsName other := by
  intro other member
  rw [descend] at member
  split at member
  · exact names other member
  · rename_i someSegment
    split at member
    · split at member
      · exact names other (List.mem_of_mem_tail member)
      · exact names other member
    · rename_i notAbove
      rcases List.mem_cons.mp member with same | earlier
      · rw [same]
        exact ⟨fun empty => someSegment (.inl empty), fun here => someSegment (.inr here), notAbove,
          whole⟩
      · exact names other earlier

theorem isName_foldl_descend {above parts : List (List Char)}
    (names : ∀ other ∈ above, IsName other) (whole : ∀ part ∈ parts, '/' ∉ part) :
    ∀ other ∈ parts.foldl (descend false) above, IsName other := by
  induction parts generalizing above with
  | nil => exact names
  | cons part rest induction =>
      apply induction (isName_descend names (whole part List.mem_cons_self))
      exact fun other member => whole other (List.mem_cons_of_mem _ member)

theorem isName_segments (path : List Char) : ∀ segment ∈ segments path, IsName segment := by
  intro segment member
  apply @isName_foldl_descend [] (path.splitOn '/')
  · intro other none
    cases none
  · exact fun part inPath => not_mem_of_mem_splitOn inPath
  · exact List.mem_reverse.mp member

theorem foldl_descend_names {above names : List (List Char)}
    (all : ∀ name ∈ names, IsName name) :
    names.foldl (descend false) above = names.reverse ++ above := by
  induction names generalizing above with
  | nil => rfl
  | cons name rest induction =>
      rw [List.foldl_cons, descend_name (all name List.mem_cons_self),
        induction fun other member => all other (List.mem_cons_of_mem _ member)]
      simp

/-- The segments of the text of an absolute path that is normalized: those of the
path, and an empty one behind a trailing separator. -/
theorem splitOn_normalize {path : List Char} (absolute : path.head? = some '/') :
    ∃ trail, (trail = [] ∨ trail = [[]]) ∧
      (normalize path).splitOn '/' = [] :: (segments path ++ trail) := by
  have names := isName_segments path
  have text : normalizeString path false = ['/'].intercalate (segments path) := rfl
  have whole : ∀ segment ∈ segments path, '/' ∉ segment := fun segment member =>
    (names segment member).whole
  cases path with
  | nil => cases absolute
  | cons first rest =>
      have isAbsolute : decide ((first :: rest).head? = some '/') = true :=
        decide_eq_true absolute
      cases reduced : segments (first :: rest) with
      | nil =>
          refine ⟨[[]], .inr rfl, ?_⟩
          rw [reduced, List.intercalate_nil] at text
          unfold normalize
          simp only [isAbsolute, Bool.not_true, text]
          rfl
      | cons name more =>
          rw [reduced] at names whole text
          have nameNonempty := (names name List.mem_cons_self).nonempty
          have someText : ∃ head tail, ['/'].intercalate (name :: more) = head :: tail := by
            cases name with
            | nil => exact absurd rfl nameNonempty
            | cons head tail => cases more <;> simp
          have parts := List.splitOn_intercalate '/' whole (List.cons_ne_nil name more)
          rcases someText with ⟨head, tail, isText⟩
          rw [isText] at text parts
          unfold normalize
          simp only [isAbsolute, Bool.not_true, text]
          cases ended : decide ((first :: rest).getLast? = some '/') with
          | false =>
              refine ⟨[], .inl rfl, ?_⟩
              simp [List.splitOn_cons_eq_if_modifyHead _ (head :: tail), parts]
          | true =>
              refine ⟨[[]], .inr rfl, ?_⟩
              simp only [if_true]
              rw [List.splitOn_cons_eq_if_modifyHead, if_pos (BEq.refl _),
                List.splitOn_append_cons_self,
                parts]
              rfl

theorem splitOn_join {left : List Char} (absolute : left.head? = some '/') (right : List Char) :
    ∃ trail, (trail = [] ∨ trail = [[]]) ∧
      (join left right).splitOn '/' =
        [] :: (((right.splitOn '/').foldl (descend false)
          ((left.splitOn '/').foldl (descend false) [])).reverse ++ trail) := by
  have someLeft : left ≠ [] := by
    rintro rfl
    cases absolute
  rw [join, if_neg someLeft]
  by_cases noRight : right = []
  · subst noRight
    rw [if_pos rfl]
    exact splitOn_normalize absolute
  · have joinedAbsolute : (left ++ '/' :: right).head? = some '/' := by
      rw [List.head?_append, absolute]
      rfl
    have joined := splitOn_normalize joinedAbsolute
    rw [segments, List.splitOn_append_cons_self, List.foldl_append] at joined
    rwa [if_neg noRight]

/-! ## Text prefixes -/

theorem eq_of_splitOn {left right : List Char} (same : left.splitOn '/' = right.splitOn '/') :
    left = right := by
  have sameText := congrArg (['/'].intercalate ·) same
  simpa only [List.intercalate_splitOn] using sameText

theorem splitOn_append {left right : List Char} {before rest : List (List Char)}
    {last first : List Char} (leftParts : left.splitOn '/' = before ++ [last])
    (rightParts : right.splitOn '/' = first :: rest) :
    (left ++ right).splitOn '/' = before ++ (last ++ first) :: rest := by
  induction left generalizing before last with
  | nil =>
      cases before with
      | nil =>
          cases leftParts
          exact rightParts
      | cons part before => cases before <;> cases leftParts
  | cons char left induction =>
      rw [List.cons_append]
      rw [List.splitOn_cons_eq_if_modifyHead] at leftParts ⊢
      split
      · rename_i separator
        rw [if_pos separator] at leftParts
        cases before with
        | nil => exact absurd (List.cons.inj leftParts).2 (List.splitOn_ne_nil '/' left)
        | cons part before =>
            rcases List.cons.inj leftParts with ⟨same, laterParts⟩
            rw [induction laterParts, ← same]
            rfl
      · rename_i inside
        rw [if_neg inside] at leftParts
        rcases List.exists_cons_of_ne_nil (List.splitOn_ne_nil '/' left) with ⟨head, tail, split⟩
        rw [split, List.modifyHead_cons] at leftParts
        cases before with
        | nil =>
            cases leftParts
            rw [@induction [] head split]
            rfl
        | cons part before =>
            rcases List.cons.inj leftParts with ⟨same, laterParts⟩
            rw [@induction (head :: before) last (by rw [split, laterParts]; rfl), ← same]
            rfl

/-- One path text begins with another when its segments do, but for the rest of
the other's last segment. -/
theorem prefix_iff {shorter longer : List Char} {before : List (List Char)} {last : List Char}
    (parts : shorter.splitOn '/' = before ++ [last]) :
    shorter <+: longer ↔
      ∃ name rest, longer.splitOn '/' = before ++ name :: rest ∧ last <+: name := by
  constructor
  · rintro ⟨more, rfl⟩
    rcases List.exists_cons_of_ne_nil (List.splitOn_ne_nil '/' more) with ⟨first, rest, split⟩
    exact ⟨last ++ first, rest, splitOn_append parts split, List.prefix_append _ _⟩
  · rintro ⟨name, rest, split, first, rfl⟩
    have whole : ∀ part ∈ first :: rest, '/' ∉ part := by
      intro part member inside
      rcases List.mem_cons.mp member with same | later
      · have inName : (last ++ first) ∈ longer.splitOn '/' := by simp [split]
        rw [same] at inside
        exact not_mem_of_mem_splitOn inName (List.mem_append_right _ inside)
      · have inRest : part ∈ longer.splitOn '/' := by simp [split, later]
        exact not_mem_of_mem_splitOn inRest inside
    have moreParts := List.splitOn_intercalate '/' whole (List.cons_ne_nil first rest)
    have same : (shorter ++ ['/'].intercalate (first :: rest)).splitOn '/' =
      longer.splitOn '/' := by
      rw [split, splitOn_append parts moreParts]
    exact ⟨_, eq_of_splitOn same⟩

/-! ## Climbing -/

/-- A relative path, reduced: how many folders it goes up, and the names it then
goes down, the last one first. -/
structure Climb where
  ups : Nat := 0
  downs : List (List Char) := []
  deriving DecidableEq

def Climb.step (climb : Climb) (segment : List Char) : Climb :=
  if segment = [] ∨ segment = ['.'] then climb
  else if segment = ['.', '.'] then
    match climb.downs with
    | [] => { climb with ups := climb.ups + 1 }
    | _ :: earlier => { climb with downs := earlier }
  else { climb with downs := segment :: climb.downs }

def climb (path : List Char) : Climb := (path.splitOn '/').foldl Climb.step {}

/-- Where a climb leads that starts in the folder with the names `folder`; the
last name comes first. -/
def Climb.endsIn (folder : List (List Char)) (climb : Climb) : List (List Char) :=
  climb.downs ++ (folder.take (folder.length - climb.ups)).reverse

theorem take_reverse_of_lt {folder : List (List Char)} {count : Nat}
    (within : count < folder.length) :
    (folder.take (count + 1)).reverse = folder[count] :: (folder.take count).reverse := by
  rw [List.take_add_one, List.getElem?_eq_getElem within]
  simp

/-- Descending from a folder segment by segment leads where the reduced path
does. -/
theorem descend_climb {folder : List (List Char)} (folderNames : ∀ name ∈ folder, IsName name)
    {climb : Climb} (names : ∀ name ∈ climb.downs, IsName name) (segment : List Char) :
    descend false (climb.endsIn folder) segment = (climb.step segment).endsIn folder := by
  rw [descend, Climb.step]
  split
  · rfl
  · split
    · cases downs : climb.downs with
      | cons name earlier =>
          rw [downs] at names
          have notAbove := (names name List.mem_cons_self).notAbove
          simp [Climb.endsIn, downs, notAbove]
      | nil =>
          cases height : folder.length - climb.ups with
          | zero =>
              have lower : folder.length - (climb.ups + 1) = 0 := by omega
              simp [Climb.endsIn, downs, height, lower]
          | succ count =>
              have within : count < folder.length := by omega
              have lower : folder.length - (climb.ups + 1) = count := by omega
              have notAbove := (folderNames _ (List.getElem_mem within)).notAbove
              simp only [Climb.endsIn, downs, height, lower, take_reverse_of_lt within]
              simp [notAbove]
    · rfl

theorem isName_step {climb : Climb} (names : ∀ name ∈ climb.downs, IsName name)
    {segment : List Char} (whole : '/' ∉ segment) :
    ∀ name ∈ (climb.step segment).downs, IsName name := by
  intro name member
  rw [Climb.step] at member
  split at member
  · exact names name member
  · rename_i someSegment
    split at member
    · cases downs : climb.downs with
      | nil =>
          simp [downs] at member
      | cons first earlier =>
          rw [downs] at member names
          exact names name (List.mem_cons_of_mem _ member)
    · rename_i notAbove
      rcases List.mem_cons.mp member with same | earlier
      · rw [same]
        exact ⟨fun empty => someSegment (.inl empty), fun here => someSegment (.inr here), notAbove,
          whole⟩
      · exact names name earlier

theorem foldl_descend_climb {folder : List (List Char)}
    (folderNames : ∀ name ∈ folder, IsName name) {parts : List (List Char)}
    (whole : ∀ part ∈ parts, '/' ∉ part) {climb : Climb}
    (names : ∀ name ∈ climb.downs, IsName name) :
    parts.foldl (descend false) (climb.endsIn folder) =
      (parts.foldl Climb.step climb).endsIn folder := by
  induction parts generalizing climb with
  | nil => rfl
  | cons part rest induction =>
      rw [List.foldl_cons, List.foldl_cons, descend_climb folderNames names]
      exact induction (fun other member => whole other (List.mem_cons_of_mem _ member))
        (isName_step names (whole part List.mem_cons_self))

/-- The segments of a relative path behind a folder of names. -/
theorem foldl_descend_folder {folder : List (List Char)}
    (folderNames : ∀ name ∈ folder, IsName name) (path : List Char) :
    (path.splitOn '/').foldl (descend false) folder.reverse = (climb path).endsIn folder := by
  have start : folder.reverse = ({} : Climb).endsIn folder := by
    simp [Climb.endsIn]
  rw [start, climb, foldl_descend_climb folderNames]
  · exact fun part member => not_mem_of_mem_splitOn member
  · intro name none
    cases none

end Vela.Foundation.PosixPath
