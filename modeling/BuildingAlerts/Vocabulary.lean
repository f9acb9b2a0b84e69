/-
The closed vocabularies of the domain.

Each vocabulary is a type with one constructor a word. A document writes a word as its code,
and a code that belongs to no word is an error of the document.
-/
set_option autoImplicit false

namespace BuildingAlerts

/-- A closed vocabulary: its words in order, their codes, and its own name. -/
class Coded (α : Type) where
  words : List α
  code : α → String
  title : String

/-- The code of a word. -/
def code {α : Type} [Coded α] (a : α) : String :=
  Coded.code a

/-- The word of a code. -/
def ofCode? {α : Type} [Coded α] (s : String) : Option α :=
  (Coded.words : List α).find? fun a => Coded.code a == s

/-- How severe an alert is. -/
inductive Priority where
  | critical | high | medium | low | info
deriving DecidableEq

instance : Coded Priority where
  words := [.critical, .high, .medium, .low, .info]
  code
    | .critical => "critical"
    | .high => "high"
    | .medium => "medium"
    | .low => "low"
    | .info => "info"
  title := "AlertPriority"

/-- Whether a configuration is evaluated. Configurations are never deleted. -/
inductive ConfigurationStatus where
  | active | paused | archived
deriving DecidableEq

instance : Coded ConfigurationStatus where
  words := [.active, .paused, .archived]
  code
    | .active => "active"
    | .paused => "paused"
    | .archived => "archived"
  title := "ConfigurationStatus"

/-- Where an alert is in its life. -/
inductive AlertStatus where
  | triggered | acknowledged | investigating | resolved | suppressed | expired | falsePositive
deriving DecidableEq

instance : Coded AlertStatus where
  words := [.triggered, .acknowledged, .investigating, .resolved, .suppressed, .expired,
    .falsePositive]
  code
    | .triggered => "triggered"
    | .acknowledged => "acknowledged"
    | .investigating => "investigating"
    | .resolved => "resolved"
    | .suppressed => "suppressed"
    | .expired => "expired"
    | .falsePositive => "false_positive"
  title := "AlertInstanceStatus"

/-- How a condition compares a value with its threshold. -/
inductive Comparison where
  | greaterThan | lessThan | equals | notEquals | greaterThanOrEqual | lessThanOrEqual
  | between | outsideRange | percentageChange | rateOfChange
deriving DecidableEq

instance : Coded Comparison where
  words := [.greaterThan, .lessThan, .equals, .notEquals, .greaterThanOrEqual, .lessThanOrEqual,
    .between, .outsideRange, .percentageChange, .rateOfChange]
  code
    | .greaterThan => "greater_than"
    | .lessThan => "less_than"
    | .equals => "equals"
    | .notEquals => "not_equals"
    | .greaterThanOrEqual => "greater_than_or_equal"
    | .lessThanOrEqual => "less_than_or_equal"
    | .between => "between"
    | .outsideRange => "outside_range"
    | .percentageChange => "percentage_change"
    | .rateOfChange => "rate_of_change"
  title := "ComparisonOperator"

/-- How the conditions of a rule are joined. -/
inductive Connective where
  | all | any
deriving DecidableEq

instance : Coded Connective where
  words := [.all, .any]
  code
    | .all => "AND"
    | .any => "OR"
  title := "LogicalOperator"

/-- How the readings of a window become one value. -/
inductive Reduction where
  | average | sum | minimum | maximum | count | median | percentile | standardDeviation
  | rateOfChange | latest
deriving DecidableEq

instance : Coded Reduction where
  words := [.average, .sum, .minimum, .maximum, .count, .median, .percentile,
    .standardDeviation, .rateOfChange, .latest]
  code
    | .average => "average"
    | .sum => "sum"
    | .minimum => "minimum"
    | .maximum => "maximum"
    | .count => "count"
    | .median => "median"
    | .percentile => "percentile"
    | .standardDeviation => "standard_deviation"
    | .rateOfChange => "rate_of_change"
    | .latest => "latest"
  title := "AggregationFunction"

/-- What a sensor measures. -/
inductive MetricType where
  | energyConsumption | powerDemand | temperature | humidity | pressure | airQuality
  | occupancy | equipmentStatus | efficiencyRatio | costPerHour | carbonEmissions
  | systemHealth | sensorConnectivity | dataQuality
deriving DecidableEq

instance : Coded MetricType where
  words := [.energyConsumption, .powerDemand, .temperature, .humidity, .pressure, .airQuality,
    .occupancy, .equipmentStatus, .efficiencyRatio, .costPerHour, .carbonEmissions,
    .systemHealth, .sensorConnectivity, .dataQuality]
  code
    | .energyConsumption => "energy_consumption"
    | .powerDemand => "power_demand"
    | .temperature => "temperature"
    | .humidity => "humidity"
    | .pressure => "pressure"
    | .airQuality => "air_quality"
    | .occupancy => "occupancy"
    | .equipmentStatus => "equipment_status"
    | .efficiencyRatio => "efficiency_ratio"
    | .costPerHour => "cost_per_hour"
    | .carbonEmissions => "carbon_emissions"
    | .systemHealth => "system_health"
    | .sensorConnectivity => "sensor_connectivity"
    | .dataQuality => "data_quality"
  title := "MetricType"

/-- What a configuration is about. -/
inductive Category where
  | energyEfficiency | equipmentHealth | occupantComfort | security | safety
  | costOptimization | maintenance | compliance | sustainability | operational
deriving DecidableEq

instance : Coded Category where
  words := [.energyEfficiency, .equipmentHealth, .occupantComfort, .security, .safety,
    .costOptimization, .maintenance, .compliance, .sustainability, .operational]
  code
    | .energyEfficiency => "energy_efficiency"
    | .equipmentHealth => "equipment_health"
    | .occupantComfort => "occupant_comfort"
    | .security => "security"
    | .safety => "safety"
    | .costOptimization => "cost_optimization"
    | .maintenance => "maintenance"
    | .compliance => "compliance"
    | .sustainability => "sustainability"
    | .operational => "operational"
  title := "AlertCategory"

/-- How much a configuration's alerts matter to the business. -/
inductive Impact where
  | critical | high | medium | low | minimal
deriving DecidableEq

instance : Coded Impact where
  words := [.critical, .high, .medium, .low, .minimal]
  code
    | .critical => "critical"
    | .high => "high"
    | .medium => "medium"
    | .low => "low"
    | .minimal => "minimal"
  title := "ImpactLevel"

/-- The kinds of channel that notifications go out on. -/
inductive Channel where
  | email | sms | push | webhook | slack | teams | phone
deriving DecidableEq

instance : Coded Channel where
  words := [.email, .sms, .push, .webhook, .slack, .teams, .phone]
  code
    | .email => "email"
    | .sms => "sms"
    | .push => "push"
    | .webhook => "webhook"
    | .slack => "slack"
    | .teams => "teams"
    | .phone => "phone"
  title := "ChannelType"

/-- What became of a delivery. -/
inductive DeliveryStatus where
  | pending | sent | delivered | failed | bounced
deriving DecidableEq

instance : Coded DeliveryStatus where
  words := [.pending, .sent, .delivered, .failed, .bounced]
  code
    | .pending => "pending"
    | .sent => "sent"
    | .delivered => "delivered"
    | .failed => "failed"
    | .bounced => "bounced"
  title := "NotificationStatus"

/-- What the notifications are counted against. -/
inductive FrequencyScope where
  | configuration | recipient
deriving DecidableEq

instance : Coded FrequencyScope where
  words := [.configuration, .recipient]
  code
    | .configuration => "configuration"
    | .recipient => "recipient"
  title := "FrequencyScope"

end BuildingAlerts
