import Veckomenyn.Like
import Veckomenyn.ReadTools

/-!
The query of a history search as a pattern.

Three replacements run over the query one after the other, the escape character's own first.
-/

namespace Veckomenyn.Escaping

open Like ReadTools

/-- `strings.ReplaceAll` of a single character. -/
def replaceAll (s : List Char) (old : Char) (new : List Char) : List Char :=
  s.flatMap fun c => if c = old then new else [c]

def escapeILIKE (q : String) : String :=
  String.ofList (replaceAll (replaceAll (replaceAll q.toList '\\' ['\\', '\\']) '%' ['\\', '%'])
    '_' ['\\', '_'])

example : ["", "plain", "50%", "pre_fix", "a%b_c", "already\\escaped", "\\%_"].map escapeILIKE =
    ["", "plain", "50\\%", "pre\\_fix", "a\\%b\\_c", "already\\\\escaped", "\\\\\\%\\_"] := by
  decide

/-- Whether a text fits a pattern, whatever the case of its letters. -/
def ilike {β : Type} [DecidableEq β] (fold : Char → β) (t pat : String) : Option Bool :=
  like fold t.toList pat.toList

/-! ### One pass for three -/

@[simp] lemma replaceAll_nil (old : Char) (new : List Char) : replaceAll [] old new = [] := rfl

lemma replaceAll_append (s t : List Char) (old : Char) (new : List Char) :
    replaceAll (s ++ t) old new = replaceAll s old new ++ replaceAll t old new :=
  List.flatMap_append

lemma replaceAll_one (c old : Char) (new : List Char) :
    replaceAll [c] old new = if c = old then new else [c] := by
  simp [replaceAll]

/-- The later replacements leave the backslashes of the earlier ones alone. -/
lemma replaced_one (c : Char) :
    replaceAll (replaceAll (replaceAll [c] '\\' ['\\', '\\']) '%' ['\\', '%']) '_' ['\\', '_'] =
      escape c := by
  by_cases hb : c = '\\'
  · subst hb
    decide
  · by_cases hp : c = '%'
    · subst hp
      decide
    · by_cases hu : c = '_'
      · subst hu
        decide
      · have hmem : c ∉ ['\\', '%', '_'] := by simp [hb, hp, hu]
        rw [replaceAll_one, if_neg hb, replaceAll_one, if_neg hp, replaceAll_one, if_neg hu, escape,
          if_neg hmem]

lemma toList_escapeILIKE (q : String) : (escapeILIKE q).toList = q.toList.flatMap escape := by
  rw [escapeILIKE, String.toList_ofList]
  induction q.toList with
  | nil => rfl
  | cons c cs ih =>
    have hsplit : c :: cs = [c] ++ cs := rfl
    rw [hsplit, replaceAll_append, replaceAll_append, replaceAll_append, replaced_one, ih,
      List.flatMap_append, List.flatMap_singleton]

/-- **One pass** over the query puts in the same backslashes. -/
theorem escapeILIKE_eq (q : String) : escapeILIKE q = ReadTools.escapeILIKE q := by
  apply String.toList_inj.mp
  rw [toList_escapeILIKE, ReadTools.escapeILIKE, String.toList_ofList]
  rfl

lemma toList_pattern (q : String) :
    ("%" ++ escapeILIKE q ++ "%").toList = '%' :: (q.toList.flatMap escape ++ ['%']) := by
  rw [String.toList_append, String.toList_append, toList_escapeILIKE]
  rfl

/-- **The pattern of a query** is one for the texts that contain the query, letter case aside. -/
theorem ilike_escaped {β : Type} [DecidableEq β] (fold : Char → β) (q t : String) :
    ilike fold t ("%" ++ escapeILIKE q ++ "%") =
      some (decide (q.toList.map fold <:+: t.toList.map fold)) := by
  rw [ilike, toList_pattern, like_between]

end Veckomenyn.Escaping
