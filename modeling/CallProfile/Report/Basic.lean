/-! # Reports

A report holds the figures of a tree as plain values, so that other programs can read
them. Times are given in samples and in seconds.
-/

namespace CallProfile.Report

/-- A caller or a callee of a symbol. -/
structure Edge where
  name : String
  start : Int
  calls : Int
  charged : Float
  deriving BEq

/-- A symbol with its figures. -/
structure SymbolFigures where
  name : String
  start : Int
  stop : Int
  source : Option String
  selfSamples : Int
  selfSeconds : Float
  cumulativeSamples : Float
  cumulativeSeconds : Float
  percentage : Float
  calls : Int
  selfCalls : Int
  cycle : Option Int
  callers : List Edge
  callees : List Edge
  deriving BEq

/-- A source file with its figures. -/
structure FileFigures where
  source : Option String
  name : String
  selfSamples : Int
  selfSeconds : Float
  percentage : Float
  symbols : List SymbolFigures
  deriving BEq

/-- A cycle with its figures. -/
structure CycleFigures where
  number : Int
  head : String
  members : List String
  selfSamples : Int
  cumulativeSamples : Float
  callsIn : Int
  deriving BEq

/-- An input that was left out. -/
structure Failure where
  path : String
  error : String
  deriving BEq

end Report

/-- A report on one run. -/
structure Report where
  run : String
  sampleRate : Int
  total : Int
  attributed : Int
  unattributed : Int
  /-- The number of diagnostics. -/
  unresolved : Int
  sources : List String
  files : List Report.FileFigures
  cycles : List Report.CycleFigures
  failures : List Report.Failure
  deriving BEq

end CallProfile
