import ImportAtlas.Output.PlainText
import ImportAtlas.Output.Structured

/-!
# Writing answers
-/

namespace ImportAtlas

def Answer.write (format : OutputFormat) (answer : Answer) : String :=
  match format with
  | .json => (Document.ofAnswer answer).print ++ "\n"
  | .text => PlainText.render answer

end ImportAtlas
