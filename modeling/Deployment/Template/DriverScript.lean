namespace Deployment.DriverScript

def lines : List String := [
  "# Renders one ERB template against a rigger evaluation context.",
  "#",
  "# Usage: ruby erb-render.rb <context.json> <template> <output>",
  "",
  "require \"erb\"",
  "require \"json\"",
  "require \"ostruct\"",
  "",
  "class UnknownProperty < StandardError",
  "  def initialize(names)",
  "    super(\"Can't find property '#\x7bnames.join(\"', or '\")\x7d'\")",
  "  end",
  "end",
  "",
  "class EvaluationContext",
  "  attr_reader :name, :index, :deployment, :properties, :raw_properties, :spec, :networks",
  "",
  "  def initialize(context)",
  "    @deployment = context[\"deployment\"]",
  "    @name = context[\"job_name\"]",
  "    @index = context[\"index\"]",
  "    @raw_properties = context[\"properties\"] || \x7b\x7d",
  "    @properties = to_open_struct(@raw_properties)",
  "    @networks = to_open_struct(context[\"networks\"] || \x7b\x7d)",
  "    @spec = to_open_struct(context)",
  "  end",
  "",
  "  def get_binding",
  "    binding",
  "  end",
  "",
  "  # p(\"a.b\") or p([\"a.b\", \"fallback.key\"], default)",
  "  def p(*args)",
  "    names = Array(args[0])",
  "    names.each do |name|",
  "      value = lookup(name)",
  "      return value unless value.nil?",
  "    end",
  "    return args[1] if args.length == 2",
  "",
  "    raise UnknownProperty, names",
  "  end",
  "",
  "  def if_p(*names)",
  "    values = names.map do |name|",
  "      value = lookup(name)",
  "      return ActiveElseBlock.new(self) if value.nil?",
  "",
  "      value",
  "    end",
  "    yield(*values)",
  "    InactiveElseBlock.new",
  "  end",
  "",
  "  private",
  "",
  "  def lookup(dotted)",
  "    dotted.split(\".\").reduce(@raw_properties) do |current, key|",
  "      return nil unless current.is_a?(Hash) && current.key?(key)",
  "",
  "      current[key]",
  "    end",
  "  end",
  "",
  "  def to_open_struct(object)",
  "    case object",
  "    when Hash",
  "      OpenStruct.new(object.transform_values \x7b |v| to_open_struct(v) \x7d)",
  "    when Array",
  "      object.map \x7b |item| to_open_struct(item) \x7d",
  "    else",
  "      object",
  "    end",
  "  end",
  "",
  "  class ActiveElseBlock",
  "    def initialize(template)",
  "      @template = template",
  "    end",
  "",
  "    def else",
  "      yield",
  "    end",
  "  end",
  "",
  "  class InactiveElseBlock",
  "    def else; end",
  "  end",
  "end",
  "",
  "context_path, template_path, output_path = ARGV",
  "context = EvaluationContext.new(JSON.parse(File.read(context_path)))",
  "template = ERB.new(File.read(template_path), trim_mode: \"-\")",
  "File.write(output_path, template.result(context.get_binding))"]

def text : String :=
  String.join (lines.map (· ++ "\n"))

end Deployment.DriverScript
