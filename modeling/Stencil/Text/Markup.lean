/-!
# Text inside markup

Five characters mean something in HTML: they are **escaped** into entities when
text is put into a page.
-/

namespace Stencil.Text

/-- What stands for a character inside markup. -/
def entity : Char → List Char
  | '&' => "&amp;".toList
  | '<' => "&lt;".toList
  | '>' => "&gt;".toList
  | '"' => "&quot;".toList
  | '\'' => "&#39;".toList
  | c => [c]

/-- The text with its five special characters written as entities. -/
def escapeMarkup (s : String) : String :=
  String.ofList (s.toList.flatMap entity)

end Stencil.Text
