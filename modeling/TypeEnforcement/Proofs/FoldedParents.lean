/-
Folding and going up to the parent.

The directory whose label a resource inherits is found by going up from the declared path and then
folding, while the label of the resource itself is installed for the folded path.  The two ways meet
except at the roots of linked trees: there the one leads above the source of the link and the other
above its target.

* `Path.Continues` — what may follow the name of a tree in a path that is the tree or lies in it;
* `Path.Link.IsBest` — the link that a path is folded with, among all that apply to it;
* `Path.IsMovedRoot` — roots of linked trees whose source and target lie in different directories.

Main statements:
* `bestAmong_better`, `bestAmong_bestLink` — which link is found for a path;
* `fold_of_isBest`, `fold_of_forall_none` — how a path is folded;
* `exists_parentOf_append` — a tree has no part in where the parent of a path below it lies;
* `isBest_parentOf` — the parent of a path in a linked tree is folded with the same link;
* `fold_parentOf_iff` — for which paths folding commutes with going up;
* `inherits_canonical_parent` — so where the inherited label of a resource comes from;
* `runRoot_inherits_from_root` — a root that does not inherit from the parent of its folded path.
-/
import Mathlib.Data.List.DropRight
import TypeEnforcement.Proofs.Allocated
import TypeEnforcement.Proofs.SharedNames

namespace TypeEnforcement

theorem Text.splitLast_append {sep : Char} {text before after : List Char}
    (h : splitLast sep text = some (before, after)) (front : List Char) :
    splitLast sep (front ++ text) = some (front ++ before, after) := by
  induction front with
  | nil => exact h
  | cons c front ih => rw [List.cons_append, splitLast, ih, List.cons_append]

namespace Path

/-! ### Slashes at the end -/

variable {path rest further : List Char} {link other : Link}

/-- Slashes are dropped at the end of a text, or of what is in front of it if nothing is left. -/
theorem dropSlashes_append_eq (front back : List Char) :
    dropSlashes (front ++ back) =
      if dropSlashes back = [] then dropSlashes front else front ++ dropSlashes back := by
  unfold dropSlashes Text.trimEnd
  rw [List.reverse_append, List.dropWhile_append]
  by_cases hback : List.dropWhile (· == '/') back.reverse = []
  · rw [hback]
    rfl
  · rw [if_neg (by simpa using hback), if_neg (by simpa using hback), List.reverse_append,
      List.reverse_reverse]

/-- What is dropped at the end of a path are slashes only. -/
theorem exists_eq_append_replicate (path : List Char) :
    ∃ count, path = dropSlashes path ++ List.replicate count '/' := by
  induction path using List.reverseRecOn with
  | nil => exact ⟨0, rfl⟩
  | append_singleton front c ih =>
    rw [dropSlashes_append_eq]
    by_cases hc : c = '/'
    · subst hc
      obtain ⟨count, hcount⟩ := ih
      refine ⟨count + 1, ?_⟩
      rw [if_pos (by decide), List.replicate_succ', ← List.append_assoc, ← hcount]
    · have hkept : dropSlashes [c] = [c] := by
        show (List.dropWhile (· == '/') [c]).reverse = [c]
        rw [List.dropWhile_cons_of_neg (by simpa using hc)]
        rfl
      exact ⟨0, by rw [hkept, if_neg (List.cons_ne_nil c []), List.replicate_zero, List.append_nil]⟩

/-- What is in front of the last component of a path, without its own trailing slashes, is a
beginning of the path up to a slash. -/
theorem exists_append_of_splitLast {before leaf : List Char}
    (h : Text.splitLast '/' (dropSlashes path) = some (before, leaf)) :
    ∃ tail, path = dropSlashes before ++ tail ∧ tail.head? = some '/' := by
  obtain ⟨slashes, hslashes⟩ := exists_dropSlashes path
  obtain ⟨count, hcount⟩ := exists_eq_append_replicate before
  refine ⟨List.replicate count '/' ++ '/' :: leaf ++ slashes, ?_, ?_⟩
  · rw [← List.append_assoc, ← List.append_assoc, ← hcount, ← Text.splitLast_eq_some h]
    exact hslashes
  · cases count <;> rfl

/-- Trailing slashes do not count for the parent of a path. -/
theorem parentOf_eq_of_dropSlashes {other : List Char} (h : dropSlashes path = dropSlashes other)
    (hne : dropSlashes other ≠ []) : parentOf path = parentOf other := by
  unfold parentOf
  rw [h]
  simp only [if_neg hne]

/-! ### Trees and what lies in them -/

/-- A text that follows the name of a tree in a path that is the tree or lies in it. -/
def Continues (rest : List Char) : Prop :=
  rest = [] ∨ rest.head? = some '/'

theorem Continues.of_append {back : List Char} (h : Continues (rest ++ back)) :
    Continues rest := by
  cases rest with
  | nil => exact .inl rfl
  | cons c rest => exact .inr (h.resolve_left (List.cons_ne_nil _ _))

theorem Continues.append {tail : List Char} (h : Continues rest) (htail : tail.head? = some '/') :
    Continues (rest ++ tail) := by
  cases rest with
  | nil => exact .inr htail
  | cons c rest => exact .inr (h.resolve_left (List.cons_ne_nil _ _))

/-- A name of a tree: it is not empty and does not end in a slash. -/
structure IsTree (tree : List Char) : Prop where
  nonempty : tree ≠ []
  trimmed : dropSlashes tree = tree

theorem isTree_of_mem_links (h : link ∈ links) :
    IsTree link.source.toList ∧ IsTree link.target.toList := by
  have hall : ∀ link ∈ links, ∀ tree ∈ [link.source.toList, link.target.toList],
      tree ≠ [] ∧ dropSlashes tree = tree := by
    decide +kernel
  obtain ⟨hsource, hrest⟩ := List.forall_mem_cons.1 (hall link h)
  obtain ⟨htarget, -⟩ := List.forall_mem_cons.1 hrest
  exact ⟨⟨hsource.1, hsource.2⟩, ⟨htarget.1, htarget.2⟩⟩

theorem IsTree.dropSlashes_append {tree : List Char} (h : IsTree tree) (rest : List Char) :
    dropSlashes (tree ++ rest) = tree ++ dropSlashes rest := by
  rw [dropSlashes_append_eq]
  split
  · rename_i hrest
    rw [h.trimmed, hrest, List.append_nil]
  · rfl

/-- The parent of a path below a tree is the tree or lies in it, and where it lies there does not
depend on the tree. -/
theorem exists_parentOf_append (hrest : Continues rest) (hbelow : dropSlashes rest ≠ []) :
    ∃ up tail, rest = up ++ tail ∧ tail.head? = some '/' ∧
      ∀ tree, IsTree tree → parentOf (tree ++ rest) = tree ++ up := by
  -- What is left without the trailing slashes begins with a slash too, so it has a last one.
  obtain ⟨before, leaf, hcut⟩ : ∃ before leaf,
      Text.splitLast '/' (dropSlashes rest) = some (before, leaf) := by
    obtain ⟨slashes, hslashes⟩ := exists_dropSlashes rest
    rw [hslashes] at hrest
    obtain ⟨c, front, hfront⟩ := List.exists_cons_of_ne_nil hbelow
    have hhead := hrest.of_append.resolve_left hbelow
    rw [hfront] at hhead ⊢
    obtain rfl : c = '/' := Option.some.inj hhead
    rw [Text.splitLast]
    split
    · exact ⟨_, _, rfl⟩
    · exact ⟨_, _, rfl⟩
  obtain ⟨tail, htail, hslash⟩ := exists_append_of_splitLast hcut
  refine ⟨dropSlashes before, tail, htail, hslash, ?_⟩
  intro tree htree
  have hnonempty (back : List Char) : tree ++ back ≠ [] :=
    List.append_ne_nil_of_left_ne_nil htree.nonempty back
  unfold parentOf
  simp only [htree.dropSlashes_append, Text.splitLast_append hcut, if_neg (hnonempty _)]

/-- The parent of a path is the root, the place that relative paths start from, or a beginning of
the path up to a slash. -/
theorem parentOf_cases (path : List Char) : parentOf path = ['.'] ∨ parentOf path = ['/'] ∨
    ∃ tail, path = parentOf path ++ tail ∧ tail.head? = some '/' := by
  unfold parentOf
  dsimp only
  split
  · split
    · exact .inl rfl
    · exact .inr (.inl rfl)
  · split
    · exact .inl rfl
    · rename_i before leaf hcut
      split
      · exact .inr (.inl rfl)
      · exact .inr (.inr (exists_append_of_splitLast hcut))

/-! ### The best link -/

theorem Link.rest?_eq_some_iff :
    link.rest? path = some rest ↔ path = link.source.toList ++ rest ∧ Continues rest := by
  rw [Link.rest?, Option.filter_eq_some_iff, Text.dropStart?_eq_some_iff, Bool.or_eq_true,
    List.isEmpty_iff, beq_iff_eq]
  rfl

/-- The link applies to the path, and among the given ones none with a longer source does. -/
structure Link.IsBest (link : Link) (among : List Link) (path rest : List Char) : Prop where
  mem : link ∈ among
  applies : link.rest? path = some rest
  longest : ∀ other ∈ among, ∀ further, other.rest? path = some further →
    rest.length ≤ further.length

/-- What is known of the best of some links. -/
def BestAmong (among : List Link) (path : List Char) : Option (Link × List Char) → Prop
  | none => ∀ link ∈ among, link.rest? path = none
  | some (link, rest) => link.IsBest among path rest

/-- The better one of a link and the best before it. -/
def better (path : List Char) (best : Option (Link × List Char)) (link : Link) :
    Option (Link × List Char) :=
  match link.rest? path, best with
  | none, _ => best
  | some rest, none => some (link, rest)
  | some rest, some (_, other) =>
    if rest.length ≤ other.length then some (link, rest) else best

theorem bestLink_eq_foldl (path : List Char) : bestLink path = links.foldl (better path) none :=
  rfl

/-- One more link is compared with the best before it. -/
theorem bestAmong_better {front : List Link} {best : Option (Link × List Char)}
    (h : BestAmong front path best) (link : Link) :
    BestAmong (front ++ [link]) path (better path best link) := by
  have hlast : link ∈ front ++ [link] := List.mem_append_right _ (List.mem_singleton_self link)
  -- What holds of the links before and of the last one holds of all of them.
  have hall {P : Link → Prop} (hfront : ∀ other ∈ front, P other) (hlink : P link) :
      ∀ other ∈ front ++ [link], P other :=
    List.forall_mem_append.2 ⟨hfront, List.forall_mem_singleton.2 hlink⟩
  unfold better
  cases hrest : link.rest? path with
  | none =>
    cases best with
    | none => exact hall h hrest
    | some found =>
      refine ⟨List.mem_append_left _ h.mem, h.applies, hall h.longest fun further hfurther => ?_⟩
      cases hrest.symm.trans hfurther
  | some rest =>
    have hsame : ∀ further, link.rest? path = some further → rest.length ≤ further.length := by
      intro further hfurther
      rw [Option.some.inj (hrest.symm.trans hfurther)]
    cases best with
    | none =>
      refine ⟨hlast, hrest, hall (fun other hother further hfurther => ?_) hsame⟩
      cases (h other hother).symm.trans hfurther
    | some found =>
      show BestAmong _ path
        (if rest.length ≤ found.2.length then some (link, rest) else some found)
      split
      · rename_i hle
        exact ⟨hlast, hrest, hall (fun other hother further hfurther =>
          hle.trans (h.longest other hother further hfurther)) hsame⟩
      · rename_i hlt
        exact ⟨List.mem_append_left _ h.mem, h.applies, hall h.longest fun further hfurther =>
          (Nat.lt_of_not_le hlt).le.trans (hsame further hfurther)⟩

theorem bestAmong_bestLink (path : List Char) : BestAmong links path (bestLink path) := by
  rw [bestLink_eq_foldl]
  generalize links = among
  -- The links are gone through from the left, so the last one comes to what the others left.
  induction among using List.reverseRecOn with
  | nil => exact fun link hlink => absurd hlink List.not_mem_nil
  | append_singleton front link ih =>
    rw [List.foldl_append, List.foldl_cons, List.foldl_nil]
    exact bestAmong_better ih link

/-- Two links that are best for a path are one. -/
theorem Link.IsBest.eq (h : link.IsBest links path rest)
    (hother : other.IsBest links path further) : link = other ∧ rest = further := by
  have hsources : (links.map Link.source).Nodup := by decide +kernel
  have hlength : rest.length = further.length :=
    Nat.le_antisymm (h.longest other hother.mem further hother.applies)
      (hother.longest link h.mem rest h.applies)
  obtain ⟨hsource, hrest⟩ := List.append_inj' (((Link.rest?_eq_some_iff.1 h.applies).1.symm).trans
    (Link.rest?_eq_some_iff.1 hother.applies).1) hlength
  exact ⟨List.inj_on_of_nodup_map hsources h.mem hother.mem (String.toList_injective hsource),
    hrest⟩

theorem fold_of_isBest (h : link.IsBest links path rest) :
    fold path = link.target.toList ++ rest := by
  have hbest := bestAmong_bestLink path
  unfold fold
  split
  · rename_i heq
    rw [heq] at hbest
    obtain ⟨rfl, rfl⟩ := h.eq hbest
    rfl
  · rename_i heq
    rw [heq] at hbest
    cases (hbest link h.mem).symm.trans h.applies

theorem fold_of_forall_none (h : ∀ link ∈ links, link.rest? path = none) : fold path = path := by
  have hbest := bestAmong_bestLink path
  unfold fold
  split
  · rename_i heq
    rw [heq] at hbest
    cases (h _ hbest.mem).symm.trans hbest.applies
  · rfl

/-- A path is folded with the best link if any link applies. -/
theorem exists_isBest_or_forall_none (path : List Char) :
    (∃ link rest, Link.IsBest link links path rest) ∨ ∀ link ∈ links, link.rest? path = none := by
  have hbest := bestAmong_bestLink path
  cases hlink : bestLink path with
  | none =>
    rw [hlink] at hbest
    exact .inr hbest
  | some found =>
    rw [hlink] at hbest
    exact .inl ⟨found.1, found.2, hbest⟩

/-! ### Going up -/

/-- A link that applies to the parent of a path applies to the path. -/
theorem Link.rest?_append {tail : List Char} (h : link.rest? path = some rest)
    (htail : tail.head? = some '/') : link.rest? (path ++ tail) = some (rest ++ tail) := by
  obtain ⟨rfl, hrest⟩ := Link.rest?_eq_some_iff.1 h
  exact Link.rest?_eq_some_iff.2 ⟨List.append_assoc _ _ _, hrest.append htail⟩

/-- No link applies to the root, or to the place that relative paths start from. -/
theorem rest?_start_eq_none :
    ∀ link ∈ links, link.rest? ['/'] = none ∧ link.rest? ['.'] = none := by
  decide +kernel

/-- No link applies to the parent of a path that none applies to. -/
theorem rest?_parentOf_eq_none (h : ∀ link ∈ links, link.rest? path = none) :
    ∀ link ∈ links, link.rest? (parentOf path) = none := by
  intro link hlink
  obtain hparent | hparent | ⟨tail, hpath, htail⟩ := parentOf_cases path
  · rw [hparent]
    exact (rest?_start_eq_none link hlink).2
  · rw [hparent]
    exact (rest?_start_eq_none link hlink).1
  · cases hrest : link.rest? (parentOf path) with
    | none => rfl
    | some rest =>
      have happlies := Link.rest?_append hrest htail
      rw [← hpath, h link hlink] at happlies
      cases happlies

/-- The parent of a path below the root of its linked tree is folded with the same link. -/
theorem isBest_parentOf (h : link.IsBest links path rest) (hbelow : dropSlashes rest ≠ []) :
    ∃ up, link.IsBest links (parentOf path) up ∧
      parentOf (link.target.toList ++ rest) = link.target.toList ++ up := by
  obtain ⟨hpath, hcontinues⟩ := Link.rest?_eq_some_iff.1 h.applies
  obtain ⟨up, tail, hrest, htail, hparent⟩ := exists_parentOf_append hcontinues hbelow
  obtain ⟨hsource, htarget⟩ := isTree_of_mem_links h.mem
  refine ⟨up, ⟨h.mem, ?_, fun other hother further hfurther => ?_⟩, hparent _ htarget⟩
  · rw [hpath, hparent _ hsource]
    rw [hrest] at hcontinues
    exact Link.rest?_eq_some_iff.2 ⟨rfl, hcontinues.of_append⟩
  · -- A better link for the parent would have been better for the path.
    have happlies := Link.rest?_append hfurther htail
    rw [hpath, hparent _ hsource, List.append_assoc, ← hrest, ← hpath] at happlies
    have hlength := h.longest other hother _ happlies
    rw [hrest, List.length_append, List.length_append] at hlength
    exact Nat.le_of_add_le_add_right hlength

/-- The root of a linked tree, where the source of the link and its target do not lie in the same
directory.  Trailing slashes do not count. -/
def IsMovedRoot (path : List Char) : Prop :=
  ∃ link ∈ links, link.source ≠ "/usr/lib64" ∧ dropSlashes path = link.source.toList

instance (path : List Char) : Decidable (IsMovedRoot path) :=
  inferInstanceAs (Decidable (∃ link ∈ links, _))

/-- The root of a linked tree is folded as a whole. -/
theorem exists_isBest_of_root (hlink : link ∈ links) (h : dropSlashes path = link.source.toList) :
    ∃ rest, link.IsBest links path rest ∧ dropSlashes rest = [] := by
  obtain ⟨count, hpath⟩ := exists_eq_append_replicate path
  rw [h] at hpath
  have hslashes : dropSlashes (List.replicate count '/') = [] := by
    have hnil := (isTree_of_mem_links hlink).1.dropSlashes_append (List.replicate count '/')
    rw [← hpath, h] at hnil
    exact (List.append_cancel_left (hnil.symm.trans (List.append_nil _).symm))
  have hrest : link.rest? path = some (List.replicate count '/') := by
    refine Link.rest?_eq_some_iff.2 ⟨hpath, ?_⟩
    cases count with
    | zero => exact .inl rfl
    | succ count => exact .inr rfl
  refine ⟨_, ⟨hlink, hrest, fun other hother further hfurther => ?_⟩, hslashes⟩
  -- A source that reached into the slashes would end in one.
  obtain ⟨hother', -⟩ := Link.rest?_eq_some_iff.1 hfurther
  have htree := (isTree_of_mem_links hother).1
  have hdropped : other.source.toList ++ dropSlashes further = link.source.toList := by
    rw [← htree.dropSlashes_append, ← hother', h]
  have hlength := congrArg List.length (hpath.symm.trans hother')
  have hdroppedLength := congrArg List.length hdropped
  rw [List.length_append, List.length_append] at hlength
  rw [List.length_append] at hdroppedLength
  omega

/-- A path is the root of a linked tree, or it lies in one without being the root of any, or no
link has to do with it. -/
theorem link_cases (path : List Char) :
    (∃ (link : Link) (rest : List Char), link.IsBest links path rest ∧ dropSlashes rest = [] ∧
      dropSlashes path = link.source.toList) ∨
    (∀ link ∈ links, dropSlashes path ≠ link.source.toList) ∧
      ((∃ (link : Link) (rest : List Char), link.IsBest links path rest ∧ dropSlashes rest ≠ []) ∨
        ∀ link ∈ links, link.rest? path = none) := by
  obtain ⟨link, rest, hbest⟩ | hnone := exists_isBest_or_forall_none path
  · by_cases hroot : dropSlashes rest = []
    · obtain ⟨hpath, -⟩ := Link.rest?_eq_some_iff.1 hbest.applies
      refine .inl ⟨link, rest, hbest, hroot, ?_⟩
      rw [hpath, (isTree_of_mem_links hbest.mem).1.dropSlashes_append, hroot, List.append_nil]
    · refine .inr ⟨fun other hother hotherRoot => ?_, .inl ⟨link, rest, hbest, hroot⟩⟩
      obtain ⟨further, hfurther, hslashes⟩ := exists_isBest_of_root hother hotherRoot
      obtain ⟨-, rfl⟩ := hbest.eq hfurther
      exact hroot hslashes
  · refine .inr ⟨fun other hother hotherRoot => ?_, .inr hnone⟩
    obtain ⟨further, hfurther, -⟩ := exists_isBest_of_root hother hotherRoot
    cases (hnone other hother).symm.trans hfurther.applies

/-- Folding commutes with going up, except at the roots of linked trees that lie elsewhere. -/
theorem fold_parentOf_iff (path : List Char) :
    fold (parentOf path) = parentOf (fold path) ↔ ¬IsMovedRoot path := by
  obtain ⟨link, rest, hbest, hroot, htrimmed⟩ | ⟨hno, hinside⟩ := link_cases path
  · -- At a root, the parents of the source and of the target are compared.
    obtain ⟨hsource, htarget⟩ := isTree_of_mem_links hbest.mem
    have hlinks : ∀ link ∈ links, fold (parentOf link.source.toList) =
        parentOf link.target.toList ↔ link.source = "/usr/lib64" := by
      decide +kernel
    have hup : parentOf path = parentOf link.source.toList :=
      parentOf_eq_of_dropSlashes (htrimmed.trans hsource.trimmed.symm)
        (hsource.trimmed.symm ▸ hsource.nonempty)
    have hupTarget : parentOf (fold path) = parentOf link.target.toList := by
      refine parentOf_eq_of_dropSlashes ?_ (htarget.trimmed.symm ▸ htarget.nonempty)
      rw [fold_of_isBest hbest, htarget.dropSlashes_append, hroot, List.append_nil,
        htarget.trimmed]
    rw [hup, hupTarget, hlinks link hbest.mem]
    constructor
    · rintro hsame ⟨other, hother, hmoved, hotherRoot⟩
      have heq := String.toList_injective (htrimmed.symm.trans hotherRoot)
      exact hmoved (heq.symm.trans hsame)
    · intro hnot
      exact not_not.1 fun hmoved => hnot ⟨link, hbest.mem, hmoved, htrimmed⟩
  · refine iff_of_true ?_ fun ⟨other, hother, _, hroot⟩ => hno other hother hroot
    obtain ⟨link, rest, hbest, hrest⟩ | hnone := hinside
    · obtain ⟨up, hup, hparent⟩ := isBest_parentOf hbest hrest
      rw [fold_of_isBest hup, fold_of_isBest hbest, hparent]
    · rw [fold_of_forall_none (rest?_parentOf_eq_none hnone), fold_of_forall_none hnone]

/-! ### Wildcards -/

/-- Every trailing form has a wildcard right behind a slash, which no backslash takes the meaning
off. -/
theorem hasWildcard_of_trailing {t : Trailing} (h : (splitTrailing path).2 = some t) :
    hasWildcard path = true := by
  have hform : ∃ front back, t.glob = front ++ '/' :: '*' :: back := by
    cases t with
    | selfAndTree => exact ⟨['\x7b', ','], ['*', '\x7d'], rfl⟩
    | selfAndChildren => exact ⟨['\x7b', ','], ['\x7d'], rfl⟩
    | tree => exact ⟨[], ['*'], rfl⟩
    | children => exact ⟨[], [], rfl⟩
  have hwild (escaped : Bool) (front back : List Char) :
      hasWildcardFrom escaped (front ++ '/' :: '*' :: back) = true := by
    induction front generalizing escaped with
    | nil => simp [hasWildcardFrom, isWild]
    | cons c front ih => rw [List.cons_append, hasWildcardFrom, ih, Bool.or_true]
  obtain ⟨front, back, hglob⟩ := hform
  have hsplit := splitTrailing_append path
  rw [h, Option.map_some, Option.getD_some, hglob, ← List.append_assoc] at hsplit
  rw [hsplit]
  exact hwild false _ _

/-- A path without wildcards has no trailing form, so it lies in its parent. -/
theorem directory_of_not_hasWildcard (h : hasWildcard path = false) :
    directory path = parentOf path := by
  unfold directory
  split
  · rename_i t hform
    rw [hasWildcard_of_trailing hform] at h
    cases h
  · rfl

/-- Linked trees have no wildcards and no backslashes in their names. -/
theorem hasWildcard_fold (path : List Char) : hasWildcard (fold path) = hasWildcard path := by
  -- A front without wildcards and backslashes leaves no escape open for what follows.
  have hplain {front : List Char} (hfront : IsWildless front) (rest : List Char) :
      hasWildcard (front ++ rest) = hasWildcard rest := by
    induction front with
    | nil => rfl
    | cons c front ih =>
      obtain ⟨hc, hfront'⟩ := List.forall_mem_cons.1 hfront
      simp only [List.mem_cons, List.not_mem_nil, or_false, not_or] at hc
      have hwild : isWild c = false := by simp [isWild, hc]
      show ((isWild c && !false) || hasWildcardFrom (c == '\\' && !false) (front ++ rest)) = _
      rw [hwild, beq_eq_false_iff_ne.2 hc.2.2]
      exact ih hfront'
  obtain ⟨link, rest, hbest⟩ | hnone := exists_isBest_or_forall_none path
  · obtain ⟨hpath, -⟩ := Link.rest?_eq_some_iff.1 hbest.applies
    have hliteral := (isLiteral_of_mem_links link hbest.mem).isWildless
    obtain ⟨hsource, htarget⟩ := List.forall_mem_append.1 hliteral
    rw [fold_of_isBest hbest, hplain htarget, hpath, hplain hsource]
  · rw [fold_of_forall_none hnone]

/-- The directory of a path without wildcards, folded, is the directory of the folded path, except
for the roots of linked trees that lie elsewhere. -/
theorem fold_directory_iff (h : hasWildcard path = false) :
    fold (directory path) = directory (fold path) ↔ ¬IsMovedRoot path := by
  have hfold : hasWildcard (fold path) = false := (hasWildcard_fold path).trans h
  rw [directory_of_not_hasWildcard h, directory_of_not_hasWildcard hfold]
  exact fold_parentOf_iff path

end Path

/-! ### Inherited labels -/

namespace Allocation

open LabelledFile (Describes Inherits parentPath)
open TypeEnforcement.Path (IsMovedRoot directory fold hasWildcard)

/-- Every file of an allocation stands for its resource and has the label of its directory. -/
theorem forall₂_inherits_make {project : Project} {catalog last : Catalog} {own : List Installed}
    {allocation : Allocation} (h : make project catalog own = .ok (allocation, last)) :
    List.Forall₂ (fun resource file => Describes resource file ∧ Inherits last file)
      project.resources allocation.files := by
  have hdescribes := describes_make h
  obtain ⟨files, inherited, applications, -, hinherited, -, rfl⟩ := make_eq_ok_iff.1 h
  have hparents : ∀ file ∈ settleDomains project.entries inherited, Inherits last file :=
    forall_inherits_settleDomains (LabelledFile.forall_inherits hinherited)
  exact ((List.forall₂_and_left _ _).2 ⟨hparents, hdescribes.flip⟩).flip.imp fun _ _ => And.symm

/-- For a path without wildcards, folding its directory leads to the directory of the folded path,
just if the path is not the root of a linked tree that lies elsewhere.  A resource inherits the
label of its folded directory, so with this exception the label of the directory that the labelled
path lies in. -/
theorem inherits_canonical_parent :
    (∀ path, hasWildcard path = false →
      (fold (directory path) = directory (fold path) ↔ ¬IsMovedRoot path)) ∧
    ∀ project catalog own allocation last, make project catalog own = .ok (allocation, last) →
      List.Forall₂ (fun resource file => Describes resource file ∧
        (∃ t entry, last.lookup (parentPath resource.path) .directory = some (t, entry) ∧
          file.parentLabel = entry.label) ∧
        (hasWildcard resource.path.toList = false →
          (parentPath resource.path = String.ofList (directory (fold resource.path.toList)) ↔
            ¬IsMovedRoot resource.path.toList))) project.resources allocation.files := by
  refine ⟨fun path => Path.fold_directory_iff, fun project catalog own allocation last h => ?_⟩
  refine (forall₂_inherits_make h).imp ?_
  rintro resource file ⟨hdescribes, t, entry, hlookup, hlabel⟩
  rw [hdescribes.path] at hlookup
  refine ⟨hdescribes, ⟨t, entry, hlookup, hlabel⟩, fun hplain => ?_⟩
  rw [← Path.fold_directory_iff hplain]
  exact String.ofList_inj

/-- A host with labels for everything and for a directory. -/
def varCatalog : Catalog :=
  .make {} [.bind "/.*" .any (.object "root_t"), .bind "/var" .directory (.object "var_t")] [] []

/-- A file in a linked tree, and the root of that tree. -/
def runTree : Project where
  name := "demo"
  resources := [
    { path := "/run/tool", classWord := "exec_file", typeName := some "tool_exec_t" },
    { path := "/run", classWord := "dir", typeName := some "own_run_t" }]
  specs := [{ name := "demo.json", applications := [{ path := "/run/tool" }] }]

theorem exists_make_runTree : ∃ allocation last tool root,
    make runTree varCatalog [] = .ok (allocation, last) ∧ allocation.files = [tool, root] ∧
      tool.typeName = "tool_exec_t" ∧ tool.parentType = "own_run_t" ∧ root.pattern = "/var/run" ∧
      root.parentType = "root_t" ∧
      (last.lookup "/var" .directory).map (fun found => found.2.label) =
        some (.object "var_t") := by
  have hanswer : (make runTree varCatalog []).toOption.any fun answer =>
      answer.1.files.map LabelledFile.typeName = ["tool_exec_t", "own_run_t"] ∧
      answer.1.files.map LabelledFile.parentType = ["own_run_t", "root_t"] ∧
      answer.1.files.map LabelledFile.pattern = ["/var/run/tool", "/var/run"] ∧
      (answer.2.lookup "/var" .directory).map (fun found => found.2.label) =
        some (.object "var_t") := by
    unfold make runTree varCatalog Catalog.make
    simp only [LabelledFile.makeAll, Catalog.allocate, TierEntries.push, TierEntries.ofList,
      TierEntries.searchOrder_eq_insertionSort]
    decide +kernel
  obtain ⟨⟨allocation, last⟩, hmake, htypes, hparents, hpatterns, hlookup⟩ :=
    exists_of_any_toOption hanswer
  obtain ⟨tool, root, hfiles⟩ : ∃ tool root, allocation.files = [tool, root] :=
    List.length_eq_two.1 (by simpa using congrArg List.length hparents)
  rw [hfiles] at htypes hparents hpatterns
  simp only [List.map_cons, List.map_nil, List.cons.injEq, and_true] at htypes hparents hpatterns
  exact ⟨allocation, last, tool, root, hmake, hfiles, htypes.1, hparents.1, hpatterns.2, hparents.2,
    hlookup⟩

/-- The file inherits from the directory that it is labelled in, under the name that the link leads
to. -/
theorem runTool_inherits_canonical_parent :
    fold (directory "/run/tool".toList) = directory (fold "/run/tool".toList) ∧
    ∃ allocation last tool root, make runTree varCatalog [] = .ok (allocation, last) ∧
      allocation.files = [tool, root] ∧ ∃ t entry,
        last.lookup "/var/run" .directory = some (t, entry) ∧ tool.parentLabel = entry.label := by
  obtain ⟨hpaths, hallocations⟩ := inherits_canonical_parent
  have hplain : hasWildcard "/run/tool".toList = false := by decide
  have hinside : ¬IsMovedRoot "/run/tool".toList := by decide +kernel
  obtain ⟨allocation, last, tool, root, hmake, hfiles, -⟩ := exists_make_runTree
  have hresources := hallocations _ _ _ _ _ hmake
  rw [hfiles] at hresources
  obtain ⟨-, ⟨t, entry, hlookup, hlabel⟩, hparent⟩ := (List.forall₂_cons.1 hresources).1
  have hcanonical : String.ofList (directory (fold "/run/tool".toList)) = "/var/run" := by
    decide +kernel
  rw [(hparent hplain).2 hinside, hcanonical] at hlookup
  exact ⟨(hpaths _ hplain).2 hinside, allocation, last, tool, root, hmake, hfiles, t, entry,
    hlookup, hlabel⟩

/-- The root of a linked tree inherits from the directory above the link, and not from the one that
its labelled path lies in. -/
theorem runRoot_inherits_from_root :
    Path.isAbsolute "/run" = true ∧ hasWildcard "/run".toList = false ∧
    fold (directory "/run".toList) = "/".toList ∧ directory (fold "/run".toList) = "/var".toList ∧
    ∃ allocation last tool root t entry, make runTree varCatalog [] = .ok (allocation, last) ∧
      allocation.files = [tool, root] ∧ root.pattern = "/var/run" ∧
      last.lookup "/var" .directory = some (t, entry) ∧ entry.label.typeName = "var_t" ∧
      root.parentType = "root_t" := by
  obtain ⟨allocation, last, tool, root, hmake, hfiles, -, -, hpattern, hparent, hvar⟩ :=
    exists_make_runTree
  obtain ⟨⟨t, entry⟩, hlookup, hlabel⟩ := Option.map_eq_some_iff.1 hvar
  exact ⟨by decide, by decide, by decide +kernel, by decide +kernel, allocation, last, tool, root,
    t, entry, hmake, hfiles, hpattern, hlookup, congrArg Label.typeName hlabel, hparent⟩

end Allocation

end TypeEnforcement
