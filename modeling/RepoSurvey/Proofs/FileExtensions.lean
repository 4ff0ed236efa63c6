import Mathlib
import RepoSurvey.Language
import RepoSurvey.Proofs.Locations
import RepoSurvey.Proofs.Path
import RepoSurvey.Proofs.TextBytes

/-!
The extension of a file beside the usual one, for which all dots that a name begins with belong to its stem.
Here only the first dot does. So the two differ exactly where a name is made of two dots or more and a rest
without a dot: the rest is taken for its extension, and the file for a source file if the rest is on the list.
-/

namespace RepoSurvey

/-! ### The usual extension of a name -/

/-- What can be the name of a file. -/
structure IsFileName (name : String) : Prop where
  ne_empty : name ≠ ""
  solidus_not_mem : '/' ∉ name.toList
  ne_dot : name ≠ "."
  ne_dots : name ≠ ".."

/-- What follows the last dot of a name, provided that something else than dots stands before it. -/
def usualExtension (name : String) : String :=
  if (name.toList.rdropWhile (· != '.')).any (· != '.') then
    String.ofList (name.toList.rtakeWhile (· != '.'))
  else ""

/-- A text with the letters A to Z made small. -/
def lowered (s : String) : String := String.ofList (s.toList.map Char.toLower)

/-- A name that is made of two dots or more and a rest without a dot. -/
structure BeginsWithDots (name rest : String) : Prop where
  rest_ne : rest ≠ ""
  dot_not_mem : '.' ∉ rest.toList
  falls : ∃ dots, dots ≠ "" ∧ (∀ c ∈ dots.toList, c = '.') ∧ name = dots ++ "." ++ rest

/-- What is in a list stands somewhere in it for the last time. -/
theorem exists_last_of_mem {α : Type} {a : α} {l : List α} (h : a ∈ l) :
    ∃ before after, l = before ++ a :: after ∧ a ∉ after := by
  obtain ⟨after, before, hback, hnot⟩ := List.eq_append_cons_of_mem (List.mem_reverse.mpr h)
  refine ⟨before.reverse, after.reverse, ?_, fun hmem => hnot (List.mem_reverse.mp hmem)⟩
  rw [← List.reverse_reverse l, hback]
  simp

/-- A name has no dot, or it falls at its last one. -/
theorem dot_not_mem_or_exists_stem (name : String) :
    '.' ∉ name.toList ∨ ∃ stem e, name = stem ++ "." ++ e ∧ '.' ∉ e.toList := by
  by_cases h : '.' ∈ name.toList
  · obtain ⟨before, after, hname, hafter⟩ := exists_last_of_mem h
    refine Or.inr ⟨String.ofList before, String.ofList after, ?_, by simpa using hafter⟩
    apply String.toList_inj.mp
    simp [hname]
  · exact Or.inl h

theorem bne_of_not_mem {α : Type} [DecidableEq α] {a : α} {l : List α} (h : a ∉ l) :
    ∀ b ∈ l, (b != a) = true :=
  fun _ hb => bne_iff_ne.mpr (ne_of_mem_of_not_mem hb h)

theorem usualExtension_of_not_mem {name : String} (h : '.' ∉ name.toList) : usualExtension name = "" := by
  have hnone : name.toList.rdropWhile (· != '.') = [] :=
    List.rdropWhile_eq_nil_iff.mpr (bne_of_not_mem h)
  rw [usualExtension, hnone]
  rfl

theorem rtakeWhile_stem {stem e : String} (h : '.' ∉ e.toList) :
    (stem ++ "." ++ e).toList.rtakeWhile (· != '.') = e.toList := by
  have hnone : (stem.toList ++ ['.']).rtakeWhile (· != '.') = [] := by simp
  have hlist : (stem ++ "." ++ e).toList = stem.toList ++ ['.'] ++ e.toList := by simp
  rw [hlist, rtakeWhile_append_of_pos (bne_of_not_mem h), hnone, List.nil_append]

theorem rdropWhile_stem {stem e : String} (h : '.' ∉ e.toList) :
    (stem ++ "." ++ e).toList.rdropWhile (· != '.') = stem.toList ++ ['.'] := by
  have hkept : (stem.toList ++ ['.']).rdropWhile (· != '.') = stem.toList ++ ['.'] := by simp
  have hlist : (stem ++ "." ++ e).toList = stem.toList ++ ['.'] ++ e.toList := by simp
  rw [hlist, rdropWhile_append_of_pos (bne_of_not_mem h), hkept]

theorem usualExtension_append {stem e : String} (h : '.' ∉ e.toList) :
    usualExtension (stem ++ "." ++ e) = if ∀ c ∈ stem.toList, c = '.' then "" else e := by
  rw [usualExtension, rdropWhile_stem h, rtakeWhile_stem h, String.ofList_toList]
  by_cases hdots : ∀ c ∈ stem.toList, c = '.'
  · rw [if_pos hdots, if_neg (by simpa using hdots)]
  · rw [if_neg hdots, if_pos (by simpa using hdots)]

theorem dot_not_mem_usualExtension (name : String) : '.' ∉ (usualExtension name).toList := by
  rcases dot_not_mem_or_exists_stem name with hnone | ⟨stem, e, rfl, he⟩
  · rw [usualExtension_of_not_mem hnone]
    exact List.not_mem_nil
  · rw [usualExtension_append he]
    split
    · exact List.not_mem_nil
    · exact he

namespace BeginsWithDots

variable {name rest rest' : String}

theorem rtakeWhile_eq (h : BeginsWithDots name rest) :
    name.toList.rtakeWhile (· != '.') = rest.toList := by
  obtain ⟨-, hrest, dots, -, -, rfl⟩ := h
  exact rtakeWhile_stem hrest

theorem unique (h : BeginsWithDots name rest) (h' : BeginsWithDots name rest') : rest = rest' :=
  String.toList_inj.mp (h.rtakeWhile_eq.symm.trans h'.rtakeWhile_eq)

theorem dot_mem (h : BeginsWithDots name rest) : '.' ∈ name.toList := by
  obtain ⟨-, -, dots, -, -, rfl⟩ := h
  simp

/-- A name that falls at its last dot begins with dots exactly if its stem is made of dots. -/
theorem of_stem {stem e : String} (he : '.' ∉ e.toList) (h : BeginsWithDots (stem ++ "." ++ e) rest) :
    rest = e ∧ stem ≠ "" ∧ ∀ c ∈ stem.toList, c = '.' := by
  have hrest : rest = e := String.toList_inj.mp (h.rtakeWhile_eq.symm.trans (rtakeWhile_stem he))
  obtain ⟨-, hdot, dots, hne, hdots, heq⟩ := h
  have hstem : stem.toList ++ ['.'] = dots.toList ++ ['.'] := by
    rw [← rdropWhile_stem he, ← rdropWhile_stem hdot, heq]
  have hsame : stem = dots := String.toList_inj.mp (List.append_cancel_right hstem)
  exact ⟨hrest, hsame ▸ hne, hsame ▸ hdots⟩

end BeginsWithDots

/-! ### Small letters -/

theorem toLower_eq_dot {c : Char} (h : c.toLower = '.') : c = '.' := by
  by_cases hupper : c.isUpper = true
  · have hlower := Char.isLower_toLower_eq_isAlpha c
    rw [h, Char.isAlpha, hupper, Bool.true_or] at hlower
    exact absurd hlower (by decide)
  · rwa [Char.toLower_eq_of_not_isUpper hupper] at h

theorem dot_not_mem_lowered {s : String} (h : '.' ∉ s.toList) : '.' ∉ (lowered s).toList := by
  rw [lowered, String.toList_ofList]
  intro hmem
  obtain ⟨c, hc, heq⟩ := List.mem_map.mp hmem
  exact h (toLower_eq_dot heq ▸ hc)

theorem lowered_lowered (s : String) : lowered (lowered s) = lowered s := by
  have hagain : ∀ c : Char, c.toLower.toLower = c.toLower := fun c =>
    Char.toLower_eq_of_not_isUpper (by simp)
  rw [lowered, lowered, String.toList_ofList, List.map_map]
  exact congrArg String.ofList (List.map_congr_left fun c _ => hagain c)

theorem lowered_ne_empty {s : String} (h : s ≠ "") : lowered s ≠ "" := by
  rw [lowered]
  simpa using h

namespace Language

/-- The extensions of source files, in small letters. -/
def sourceExtensions : List String := allowList.map String.ofList

theorem isSourceExtension_lowered {e : String} (h : '.' ∉ e.toList) :
    isSourceExtension (lowered e) = true ↔ lowered e ∈ sourceExtensions := by
  have hdrop : (lowered e).toList.dropWhile (· == '.') = (lowered e).toList := by
    refine List.dropWhile_eq_self_iff.mpr fun hpos => ?_
    have hmem : (lowered e).toList[0] ∈ (lowered e).toList := List.getElem_mem hpos
    rw [beq_iff_eq]
    exact fun heq => dot_not_mem_lowered h (heq ▸ hmem)
  have hnormal : String.ofList (normalExtension (lowered e)) = lowered e := by
    rw [normalExtension, hdrop]
    exact lowered_lowered e
  have hinj : Function.Injective String.ofList := fun _ _ h => String.ofList_injective h
  calc isSourceExtension (lowered e) = true
      ↔ normalExtension (lowered e) ∈ allowList := List.contains_iff_mem
    _ ↔ String.ofList (normalExtension (lowered e)) ∈ sourceExtensions :=
        (List.mem_map_of_injective hinj).symm
    _ ↔ lowered e ∈ sourceExtensions := by rw [hnormal]

end Language

/-! ### The extension of a path that ends in a name -/

namespace Path

theorem nameExtension?_of_not_mem {n : FileName} (h : dot ∉ n) : nameExtension? n = none := by
  have hback : dot ∉ n.reverse := fun hmem => h (List.mem_reverse.mp hmem)
  have hnone : n.reverse.dropWhile (· != dot) = [] :=
    List.dropWhile_eq_nil_iff.mpr (bne_of_not_mem hback)
  rw [nameExtension?, hnone]

theorem nameExtension?_append {stem e : FileName} (h : dot ∉ e) :
    nameExtension? (stem ++ dot :: e) = if stem = [] then none else some e := by
  have hback : ∀ b ∈ e.reverse, (b != dot) = true :=
    bne_of_not_mem fun hmem => h (List.mem_reverse.mp hmem)
  have hreverse : (stem ++ dot :: e).reverse = e.reverse ++ dot :: stem.reverse := by simp
  have hdrop : (dot :: stem.reverse).dropWhile (· != dot) = dot :: stem.reverse :=
    List.dropWhile_cons_of_neg (by simp)
  have htake : (dot :: stem.reverse).takeWhile (· != dot) = [] :=
    List.takeWhile_cons_of_neg (by simp)
  rw [nameExtension?, hreverse, List.dropWhile_append_of_pos hback, List.takeWhile_append_of_pos hback,
    hdrop, htake, List.append_nil, List.reverse_reverse]
  cases hstem : stem.reverse with
  | nil => rw [if_pos (List.reverse_eq_nil_iff.mp hstem)]
  | cons b rest =>
    have hne : stem ≠ [] := fun hnil => by simp [hnil] at hstem
    rw [if_neg hne]

/-- A path that ends in a name leads to an entry of that name. -/
theorem fileName?_append {folder : Path} {n : FileName}
    (hfolder : folder = [] ∨ folder.getLast? = some solidus) (hn : n.IsStep) :
    fileName? (folder ++ n) = some n := by
  have hjoin : folder ++ n = folder.join n := by
    rw [join, if_neg (by simp [not_isAbsolute_of_solidus_not_mem hn.solidus_not_mem]), if_pos hfolder]
  rw [hjoin, fileName?, steps_join folder hn, List.getLast?_concat]

end Path

theorem IsFileName.isStep {name : String} (h : IsFileName name) :
    FileName.IsStep (Utf8.encode name) := by
  have hslash : solidus ∉ Utf8.encode name := fun hmem =>
    h.solidus_not_mem (Utf8.mem_of_mem_encode (by decide) hmem)
  have hdot : Utf8.encode "." = [dot] := by decide +kernel
  have hdots : Utf8.encode ".." = [dot, dot] := by decide +kernel
  exact ⟨Utf8.encode_ne_nil h.ne_empty, hslash,
    fun heq => h.ne_dot (Utf8.encode_injective (heq.trans hdot.symm)),
    fun heq => h.ne_dots (Utf8.encode_injective (heq.trans hdots.symm))⟩

/-- The extension of a path that ends in a name is that of the name. -/
theorem extension_append {folder : Path} {name : String}
    (hfolder : folder = [] ∨ folder.getLast? = some solidus) (hname : IsFileName name) :
    (folder ++ Utf8.encode name).extension =
      ((Path.nameExtension? (Utf8.encode name)).map fun e => lowered (Utf8.decodeLossy e)).getD "" := by
  rw [Path.extension, Path.fileName?_append hfolder hname.isStep, Option.bind_some]
  cases Path.nameExtension? (Utf8.encode name) with
  | none => rfl
  | some e => rfl

theorem extension_of_not_mem {folder : Path} {name : String}
    (hfolder : folder = [] ∨ folder.getLast? = some solidus) (hname : IsFileName name)
    (h : '.' ∉ name.toList) : (folder ++ Utf8.encode name).extension = "" := by
  have hdot : dot ∉ Utf8.encode name := fun hmem => h (Utf8.mem_of_mem_encode (by decide) hmem)
  rw [extension_append hfolder hname, Path.nameExtension?_of_not_mem hdot]
  rfl

/-- What follows the last dot is the extension if anything stands before that dot. -/
theorem extension_of_stem {folder : Path} {stem e : String}
    (hfolder : folder = [] ∨ folder.getLast? = some solidus) (hname : IsFileName (stem ++ "." ++ e))
    (h : '.' ∉ e.toList) :
    (folder ++ Utf8.encode (stem ++ "." ++ e)).extension = if stem = "" then "" else lowered e := by
  have hdot : dot ∉ Utf8.encode e := fun hmem => h (Utf8.mem_of_mem_encode (by decide) hmem)
  have hbytes : Utf8.encode (stem ++ "." ++ e) = Utf8.encode stem ++ dot :: Utf8.encode e := by
    rw [Utf8.encode_append, Utf8.encode_append, List.append_assoc]
    rfl
  rw [extension_append hfolder hname, hbytes, Path.nameExtension?_append hdot]
  by_cases hstem : stem = ""
  · subst hstem
    rfl
  · rw [if_neg (Utf8.encode_ne_nil hstem), if_neg hstem, Option.map_some, Utf8.decodeLossy_encode]
    rfl

/-- The extension is the usual one, or the name begins with dots and the rest is taken for the extension. -/
theorem extension_usual_or_rest {folder : Path} {name : String}
    (hfolder : folder = [] ∨ folder.getLast? = some solidus) (hname : IsFileName name) :
    ((folder ++ Utf8.encode name).extension = lowered (usualExtension name) ∧
      ∀ rest, ¬ BeginsWithDots name rest) ∨
    ∃ rest, BeginsWithDots name rest ∧ (folder ++ Utf8.encode name).extension = lowered rest ∧
      usualExtension name = "" := by
  rcases dot_not_mem_or_exists_stem name with hnone | ⟨stem, e, rfl, he⟩
  · left
    rw [extension_of_not_mem hfolder hname hnone, usualExtension_of_not_mem hnone]
    exact ⟨rfl, fun rest h => hnone h.dot_mem⟩
  · -- The stem is empty, or made of dots, or more than that. Only in the second case do the rules differ.
    rw [extension_of_stem hfolder hname he, usualExtension_append he]
    by_cases hstem : stem = ""
    · subst hstem
      exact Or.inl ⟨by simp [lowered], fun rest h => (h.of_stem he).2.1 rfl⟩
    rw [if_neg hstem]
    by_cases hdots : ∀ c ∈ stem.toList, c = '.'
    · rw [if_pos hdots]
      by_cases hempty : e = ""
      · subst hempty
        exact Or.inl ⟨rfl, fun rest h => h.rest_ne (h.of_stem he).1⟩
      · exact Or.inr ⟨e, ⟨hempty, he, stem, hstem, hdots, rfl⟩, rfl, rfl⟩
    · rw [if_neg hdots]
      exact Or.inl ⟨rfl, fun rest h => hdots (h.of_stem he).2.2⟩

/-- A path that ends in a name has the usual extension of that name, in small letters, exactly if the name is
not made of two dots or more and a rest without a dot. Of such a name the extension is the rest, where usually
there is none. So the path is taken for a source file against the rule exactly if the rest is on the list. What is
taken for a source file always has a language of its own. -/
theorem extension_usual_iff {folder : Path} {name : String}
    (hfolder : folder = [] ∨ folder.getLast? = some solidus) (hname : IsFileName name) :
    ((folder ++ Utf8.encode name).extension = lowered (usualExtension name) ↔
      ∀ rest, ¬ BeginsWithDots name rest) ∧
    ((Language.isSourceExtension (folder ++ Utf8.encode name).extension = true ↔
        lowered (usualExtension name) ∈ Language.sourceExtensions) ↔
      ∀ rest, BeginsWithDots name rest → lowered rest ∉ Language.sourceExtensions) ∧
    (∀ rest, BeginsWithDots name rest →
      (folder ++ Utf8.encode name).extension = lowered rest ∧ usualExtension name = "") ∧
    (Language.isSourceExtension (folder ++ Utf8.encode name).extension = true →
      Language.ofExtension (folder ++ Utf8.encode name).extension ≠ .code) := by
  rcases extension_usual_or_rest hfolder hname with ⟨heq, hnone⟩ | ⟨rest, hrest, heq, hempty⟩
  · refine ⟨iff_of_true heq hnone, iff_of_true ?_ fun rest h => absurd h (hnone rest),
      fun rest h => absurd h (hnone rest), Language.isSourceExtension_iff.mp⟩
    rw [heq]
    exact Language.isSourceExtension_lowered (dot_not_mem_usualExtension name)
  · have hunlisted : lowered "" ∉ Language.sourceExtensions := by decide +kernel
    refine ⟨iff_of_false ?_ fun h => h rest hrest, ?_, fun rest' h => ?_, Language.isSourceExtension_iff.mp⟩
    · rw [heq, hempty]
      exact lowered_ne_empty hrest.rest_ne
    · rw [heq, hempty, Language.isSourceExtension_lowered hrest.dot_not_mem, iff_false_right hunlisted]
      refine ⟨fun hnot rest' h => hrest.unique h ▸ hnot, fun h => h rest hrest⟩
    · rw [← hrest.unique h]
      exact ⟨heq, hempty⟩

section

theorem isFileName_twoDots : IsFileName "..py" := ⟨by decide, by decide, by decide, by decide⟩

/-- A name of two dots and three signs is taken for that of a Python file, though it has no extension. -/
theorem extension_twoDots :
    IsFileName "..py" ∧ (Path.ofString "..py").extension = "py" ∧ lowered (usualExtension "..py") = "" ∧
      Language.isSourceExtension (Path.ofString "..py").extension = true ∧
      "" ∉ Language.sourceExtensions :=
  ⟨isFileName_twoDots, by cbv, by decide +kernel, by cbv, by decide +kernel⟩

/-- A name that begins with one dot and holds more, in a folder written with a solidus behind it. -/
theorem extension_usual_iff_oneDot :
    (Path.ofString "src/").getLast? = some solidus ∧ IsFileName ".a..JS" ∧
      (Path.ofString "src/" ++ Utf8.encode ".a..JS").extension = "js" := by
  have hfolder : (Path.ofString "src/").getLast? = some solidus := by decide +kernel
  have hname : IsFileName ".a..JS" := ⟨by decide, by decide, by decide, by decide⟩
  have husual : lowered (usualExtension ".a..JS") = "js" := by decide +kernel
  have hnone : ∀ rest, ¬ BeginsWithDots ".a..JS" rest := by
    intro rest h
    have hstem := (@BeginsWithDots.of_stem rest ".a." "JS" (by decide) h).2.2
    exact absurd (hstem 'a' (by decide)) (by decide)
  have hext := (extension_usual_iff (Or.inr hfolder) hname).1.mpr hnone
  exact ⟨hfolder, hname, hext.trans husual⟩

end

end RepoSurvey
