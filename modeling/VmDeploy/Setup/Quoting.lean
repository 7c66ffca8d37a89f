import VmDeploy.Setup.Sanitize
import VmDeploy.Shell.Words

/-! What a shell makes of a text that `_shell_quote` has quoted. -/

set_option autoImplicit false

open Shell

namespace VmDeploy

/-- `_shell_quote` of `website.py` -/
def Website.shellQuote (value : String) : String :=
  "'" ++ String.ofList (value.toList.flatMap fun c =>
    if c = '\'' then ['\'', '\\', '\'', '\''] else [c]) ++ "'"

namespace Setup

theorem toList_shellQuote (value : String) :
    (shellQuote value).toList = Reader.quoted value.toList := by
  simp [shellQuote, Reader.quoted]

theorem website_shellQuote (value : String) : Website.shellQuote value = shellQuote value := rfl

/-- Where the shell is between two words, it reads either quotation as one word: the text
itself, of which nothing is expanded. -/
theorem shellQuote_is_one_word {value : String} (clean : '\u0000' ∉ value.toList)
    {before after : List Char} {ready : Reader} (reads : Reader.start.read before = some ready)
    (rests : ready.Rests)
    (separated : after = [] ∨ ∃ blank rest, after = blank :: rest ∧ Reader.isBlank blank = true) :
    (tokens (before ++ (shellQuote value).toList ++ after) =
      (tokens after).map
        (ready.tokens ++ [.word (value.toList.map (⟨·, .literal⟩))] ++ ·)) ∧
      tokens (before ++ (Website.shellQuote value).toList ++ after) =
        (tokens after).map
          (ready.tokens ++ [.word (value.toList.map (⟨·, .literal⟩))] ++ ·) := by
  rw [website_shellQuote, toList_shellQuote]
  have one := tokens_quoted reads rests clean separated
  exact ⟨one, one⟩

def plainWord (text : String) : Token :=
  .word (text.toList.map (⟨·, .plain⟩))

/-- The purge of the credentials, quotes and dollar signs included, is one word of its line. -/
theorem purge_is_one_word :
    tokens ("sh -c ".toList ++ (shellQuote purgeScript).toList ++ []) =
      (tokens []).map ([plainWord "sh", plainWord "-c"] ++
        [.word (purgeScript.toList.map (⟨·, .literal⟩))] ++ ·) := by
  have reads : Reader.start.read "sh -c ".toList =
      some ⟨[], false, false, false, none, [plainWord "sh", plainWord "-c"]⟩ := rfl
  have clean : '\u0000' ∉ purgeScript.toList := by
    have shown (text : String) : toString text = text := rfl
    unfold purgeScript credentialGlobs
    simp only [String.toList_append, String.toList_intercalate, shown, List.map_cons, List.map_nil]
    decide +kernel
  exact (shellQuote_is_one_word clean reads ⟨rfl, rfl, rfl, rfl⟩ (.inl rfl)).1

end Setup

end VmDeploy
