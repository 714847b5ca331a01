/-
Module: Waspp.Proofs.Chunking
Layer: Proofs
Purpose: What `parse` does with a byte stream does not depend on the blocks the stream arrives in.  The
  nested loops of the source leave a different mix of `state_`, result and half-built fields behind at each
  block boundary; `parse_eq_run` reduces them to the run of one recogniser, and runs compose.
Imports: Waspp.Model.RequestParser
Trusted boundary: none (fully proved)
Main exports: parse_blocks_eq_parse_flatten
Open obligations: none
-/
import Waspp.Model.RequestParser

namespace Waspp

open CString Incremental

/-- Calling `parse` on the blocks in turn, up to the first definite answer, gives the result, the number of
    bytes read, the `state_` and the request of a single call on the whole stream.  The parser may start in
    any state and on any request. -/
theorem parse_blocks_eq_parse_flatten (p : Parsing) (blocks : List Bytes) :
    parseBlocks p blocks = parse p blocks.flatten := by
  rw [parseBlocks_eq_feed, Machine.feed_eq_run_flatten, parse_eq_run]

/-- A request line cut inside the method, with an empty block, and inside the version. -/
example :
    let whole := bytes "GET /a?b=c HTTP/1.1\r\n\r\n"
    parseBlocks (.start {}) [whole.take 2, [], (whole.drop 2).take 14, whole.drop 16] =
      parse (.start {}) whole := by
  decide

end Waspp
