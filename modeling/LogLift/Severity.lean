/-! The severity of a message, decided by the keywords that it holds. -/

namespace LogLift

/-- Severities, the most severe first. -/
inductive Level where
  | error
  | warn
  | info
  | debug
  deriving Repr, DecidableEq

/-- The name of a level, which is also the name of its logging call. -/
def Level.name : Level → String
  | error => "error"
  | warn => "warn"
  | info => "info"
  | debug => "debug"

/-- The place of a level in the order of severity; a smaller rank is more severe. -/
def Level.rank : Level → Nat
  | error => 0
  | warn => 1
  | info => 2
  | debug => 3

/-- `word` occurs in `text` without a gap.  The empty word occurs in every text. -/
def occursIn (word : List Char) : (text : List Char) → Bool
  | [] => word.isEmpty
  | c :: cs => word.isPrefixOf (c :: cs) || occursIn word cs

/-- The words that make a message an error, a warning or a piece of information. -/
structure Keywords where
  error : List String
  warn : List String
  info : List String
  deriving Repr, DecidableEq

namespace Keywords

def defaultError : List String := ["错误", "失败", "Error", "ERROR", "fail", "Fail"]

def defaultWarn : List String := ["警告", "Warning", "WARNING", "不足", "跳过"]

def defaultInfo : List String :=
  ["完成", "成功", "Created", "Updated", "创建", "保存", "初始化", "生成", "已存在", "已有",
    "已创建", "使用", "冠军", "亚军", "季军", "殿军", "MVP", "Got", "records"]

def default : Keywords := ⟨defaultError, defaultWarn, defaultInfo⟩

instance : Inhabited Keywords := ⟨default⟩

def anyOccurs (words : List String) (text : List Char) : Bool :=
  words.any fun w => occursIn w.toList text

/-- The most severe level with a word in `text`; a text with none of the words is for
debugging. -/
def classify (k : Keywords) (text : List Char) : Level :=
  if anyOccurs k.error text then .error
  else if anyOccurs k.warn text then .warn
  else if anyOccurs k.info text then .info
  else .debug

end Keywords

end LogLift
