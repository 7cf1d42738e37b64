import Grunt.Server.Grouping

/-! # The live rows and the rows of the page

The rule that groups messages is there twice: `Run` compares a message with
what it remembers and with the clock, the page compares it with the row above.
-/

namespace Grunt.Server

open Foundation Storage

namespace Hub

variable {hub : Hub} {log : List Processed}

section Block

variable {platform : Platform} {earlier entries later : List Processed}
variable {saved : List (Nat × MessageRow)} {rows : List MessageTemplateData}

end Block

end Hub

end Grunt.Server
