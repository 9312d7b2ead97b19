/-! Powers with natural exponents mean the same operation in every module, whatever else is
imported. -/

attribute [instance (20000), default_instance 20000] instPowNat
