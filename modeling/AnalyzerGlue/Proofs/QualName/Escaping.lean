import AnalyzerGlue.Code.Printer

/-!
# Percent signs in names

A name is stored with its percent signs escaped, and a hook is printed with the
escapes turned back into percent signs.  An escape that is put in cannot form
another one with the characters around it, because the character it starts with
does not occur in it again.  So turning back undoes the escaping, unless the text
held an escape from the start: that one is turned into a percent sign too.
-/

namespace AnalyzerGlue

/-! ## Replacing -/

namespace Text

variable {pattern substitute rest : List Char}

/-- Characters that are passed over do not matter. -/
theorem replaceAfter_eq (pattern substitute : List Char) (skip : Nat) (text : List Char) :
    replaceAfter pattern substitute skip text = replace pattern substitute (text.drop skip) := by
  induction text generalizing skip with
  | nil => simp [replace, replaceAfter]
  | cons c rest ih =>
      cases skip with
      | zero => rfl
      | succ skip => exact ih skip

/-- An occurrence at the start is replaced, and the next one is sought behind it. -/
theorem replace_append (notNil : pattern ≠ []) :
    replace pattern substitute (pattern ++ rest) =
      substitute ++ replace pattern substitute rest := by
  cases pattern with
  | nil => exact absurd rfl notNil
  | cons c others =>
      have starts : (c :: others).isPrefixOf (c :: (others ++ rest)) = true :=
        List.isPrefixOf_iff_prefix.mpr (List.prefix_append (c :: others) rest)
      rw [List.cons_append, replace, replaceAfter, if_pos starts, replaceAfter_eq]
      simp

/-- A character with which no occurrence starts stays. -/
theorem replace_cons_of_not_prefix {c : Char} (noStart : ¬ pattern <+: c :: rest) :
    replace pattern substitute (c :: rest) = c :: replace pattern substitute rest := by
  have fails : ¬ pattern.isPrefixOf (c :: rest) = true := by
    rwa [List.isPrefixOf_iff_prefix]
  rw [replace, replaceAfter, if_neg fails, replace]

end Text

namespace QualName

/-! ## Escaping -/

theorem escapePercent_percent (text : List Char) :
    escapePercent ('%' :: text) = percentEscape ++ escapePercent text :=
  rfl

theorem escapePercent_cons {c : Char} (noPercent : c ≠ '%') (text : List Char) :
    escapePercent (c :: text) = c :: escapePercent text := by
  rw [escapePercent, List.flatMap_cons, if_neg noPercent]
  rfl

theorem percent_not_mem_escapePercent (text : List Char) : '%' ∉ escapePercent text := by
  intro member
  rcases List.mem_flatMap.mp member with ⟨c, _, isEscape⟩
  split at isEscape
  · exact absurd isEscape (by decide)
  · rename_i noPercent
    exact noPercent (List.mem_singleton.mp isEscape).symm

theorem escapePercent_of_not_mem {text : List Char} (noPercent : '%' ∉ text) :
    escapePercent text = text := by
  induction text with
  | nil => rfl
  | cons c text ih =>
      rw [List.mem_cons, not_or] at noPercent
      rw [escapePercent_cons (Ne.symm noPercent.1), ih noPercent.2]

/-- A text without the character that escapes start with, and without percent signs, is
found at the start of the stored text only where it has been written. -/
theorem prefix_escapePercent_iff {start text : List Char} (noZero : '0' ∉ start)
    (noPercent : '%' ∉ start) : start <+: escapePercent text ↔ start <+: text := by
  induction start generalizing text with
  | nil => simp
  | cons d start ih =>
      rw [List.mem_cons, not_or] at noZero noPercent
      cases text with
      | nil => rfl
      | cons c text =>
          by_cases isPercent : c = '%'
          · subst isPercent
            rw [escapePercent_percent, percentEscape, List.cons_append, List.cons_prefix_cons,
              List.cons_prefix_cons]
            exact iff_of_false (fun both => noZero.1 both.1.symm)
              (fun both => noPercent.1 both.1.symm)
          · rw [escapePercent_cons isPercent, List.cons_prefix_cons, List.cons_prefix_cons,
              ih noZero.2 noPercent.2]

/-- In front of a character that has not been escaped there is an escape in the stored text
only if there was one in the text that was written. -/
theorem percentEscape_prefix_iff {c : Char} (text : List Char) :
    percentEscape <+: c :: escapePercent text ↔ percentEscape <+: c :: text := by
  rw [percentEscape, List.cons_prefix_cons, List.cons_prefix_cons,
    prefix_escapePercent_iff (by decide) (by decide)]

/-- Turning escapes back gives the text that was written, unless it held an escape. -/
theorem replace_escapePercent_eq_iff (text : List Char) :
    Text.replace percentEscape ['%'] (escapePercent text) = text ↔ ¬ percentEscape <:+: text := by
  induction text with
  | nil => decide
  | cons c text ih =>
      rw [List.infix_cons_iff, not_or]
      by_cases isPercent : c = '%'
      · subst isPercent
        have noStart : ¬ percentEscape <+: '%' :: text := by
          rw [percentEscape, List.cons_prefix_cons]
          exact fun both => absurd both.1 (by decide)
        rw [escapePercent_percent, Text.replace_append (by decide), List.singleton_append,
          List.cons_inj_right, ih]
        exact (and_iff_right noStart).symm
      · rw [escapePercent_cons isPercent]
        by_cases starts : percentEscape <+: c :: text
        · -- The escape that was written becomes a percent sign where there was none.
          rcases (percentEscape_prefix_iff text).mpr starts with ⟨rest, isStored⟩
          rw [← isStored, Text.replace_append (by decide), List.singleton_append, List.cons_eq_cons]
          exact iff_of_false (fun both => isPercent both.1.symm) (fun both => both.1 starts)
        · rw [Text.replace_cons_of_not_prefix fun stored =>
              starts ((percentEscape_prefix_iff text).mp stored),
            List.cons_inj_right, ih]
          exact (and_iff_right starts).symm

theorem toList_text_ofWritten (text : List Char) :
    (ofWritten text).text.toList = escapePercent text :=
  String.toList_ofList

/-- What is printed of a hook beside its name does not depend on the name. -/
theorem exists_hook_text_eq (hook : Code.Hook) :
    ∃ behind : String, ∀ name,
      { hook with hook := name : Code.Hook }.text = "on " ++ (name.written ++ behind) := by
  refine ⟨(if hook.engine = .all then "" else " %" ++ hook.engine.keyword) ++
    (Code.attributesText hook.attributes ++ (" \x7b\n" ++ (Code.blockText hook.body ++ "\x7d\n"))),
    fun name => ?_⟩
  simp only [Code.Hook.text, String.append_assoc]

/-- A name that is stored has no percent sign, and storing it once more changes nothing.  A
hook is printed with the name in which escapes are percent signs again; this is the text
that was written in the source exactly if that text held no escape. -/
theorem ofWritten_turns_back (text : List Char) :
    '%' ∉ (ofWritten text).text.toList ∧
      ofWritten (ofWritten text).text.toList = ofWritten text ∧
      ((ofWritten text).written.toList = text ↔ ¬ percentEscape <:+: text) ∧
      ∀ hook : Code.Hook, ∃ behind : String,
        (∀ name, { hook with hook := name : Code.Hook }.text =
          "on " ++ (name.written ++ behind)) ∧
        ({ hook with hook := ofWritten text : Code.Hook }.text =
          "on " ++ (String.ofList text ++ behind) ↔ ¬ percentEscape <:+: text) := by
  have noPercent := percent_not_mem_escapePercent text
  have turnsBack : (ofWritten text).written.toList = text ↔ ¬ percentEscape <:+: text := by
    rw [written, String.toList_ofList, toList_text_ofWritten, replace_escapePercent_eq_iff]
  refine ⟨?_, ?_, turnsBack, fun hook => ?_⟩
  · rwa [toList_text_ofWritten]
  · rw [toList_text_ofWritten, ofWritten, escapePercent_of_not_mem noPercent, ofWritten]
  · rcases exists_hook_text_eq hook with ⟨behind, printed⟩
    refine ⟨behind, printed, ?_⟩
    rw [printed, String.append_right_inj, String.append_left_inj, ← turnsBack,
      ← String.toList_inj, String.toList_ofList]

end QualName

end AnalyzerGlue
