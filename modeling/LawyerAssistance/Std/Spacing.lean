import LawyerAssistance.Std.BlankLines

/-!
# Parts of a text with white space around them

The paragraphs of a text are the text but for white space in front of them and behind them. Parts
may be cut into pieces and nothing is lost.
-/

namespace LawyerAssistance.Text

variable {text space rest part : List Char} {parts : List (List Char)}

end LawyerAssistance.Text
