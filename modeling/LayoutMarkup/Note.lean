/-! Notes that a run leaves behind about what it did. -/

namespace LayoutMarkup

inductive Level where
  | trace
  | debug
  | info
  | warn
deriving DecidableEq

def Level.label : Level → String
  | .trace => "TRACE"
  | .debug => "DEBUG"
  | .info => "INFO"
  | .warn => "WARN"

structure Note where
  level : Level
  message : String
deriving DecidableEq

end LayoutMarkup
