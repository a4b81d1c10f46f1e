/-! # Log lines

A line has a level, the part of the program that wrote it and a text. Which lines are shown is decided
when they are printed.
-/

namespace FrameGraph

inductive LogLevel where
  | error | warn | info | debug | trace
deriving DecidableEq, Repr

/-- The parts of the program that write log lines. -/
inductive LogSource where
  | program | commands | layout | compiler | graph | resources | frame | pass | dispatch | draw | group
  | offFrame | recording
deriving DecidableEq, Repr

/-- The name of a part in printed lines and in filters. -/
def LogSource.path : LogSource → String
  | .program => "kiln"
  | .commands => "kiln::commands"
  | .layout => "kiln_core::layout"
  | .compiler => "kiln_graph::compiler"
  | .graph => "kiln_graph::graph"
  | .resources => "kiln_graph::resources"
  | .frame => "kiln_graph::frame"
  | .pass => "kiln_graph::pass"
  | .dispatch => "kiln_graph::passes::dispatch"
  | .draw => "kiln_graph::passes::draw"
  | .group => "kiln_graph::passes::group"
  | .offFrame => "kiln_graph::async_group"
  | .recording => "kiln_graph::recording"

structure LogLine where
  level : LogLevel
  source : LogSource
  text : String
deriving DecidableEq, Repr

end FrameGraph
